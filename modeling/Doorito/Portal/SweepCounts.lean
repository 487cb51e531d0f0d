import Doorito.Foundation.Parties
import Doorito.Portal.ExpiryRuns
import Doorito.Portal.ExpiryWindow

/-! The counts that expiry sweeps return when any number of them run at once. Each selects
its files in one query and then emits one event after the other, in transactions of their
own, so that the sweeps can meet at the idempotency constraint. -/

set_option autoImplicit false

namespace Doorito.Portal

open Foundation Common

/-- A run of the sweep: the files that its query selected, those that its loop has left, its
counters, the rows that its transactions inserted, and the exception that ended it. -/
structure SweepRun where
  selected : List UploadFile
  rest : List UploadFile
  result : SweepResult
  inserted : List OutboxEvent
  raised : Option UploadError

namespace SweepRun

def start (selected : List UploadFile) : SweepRun := ⟨selected, selected, ⟨0, 0⟩, [], none⟩

def notify (run : SweepRun) (rest : List UploadFile) (created : List OutboxEvent) : SweepRun :=
  { run with
    rest
    result := { run.result with notified := run.result.notified + 1 }
    inserted := run.inserted ++ created }

def skip (run : SweepRun) (rest : List UploadFile) : SweepRun :=
  { run with
    rest
    result := { run.result with skipped := run.result.skipped + 1 } }

/-- What the run returned or raised, once it has ended. -/
def outcome? (run : SweepRun) : Option (Except UploadError SweepResult) :=
  match run.raised, run.rest with
  | some error, _ => some (.error error)
  | none, [] => some (.ok run.result)
  | none, _ :: _ => none

end SweepRun

/-- The events, the keys ever given to events, and the runs. -/
structure SweepsWorld where
  events : EventTable
  issued : List Uuid
  runs : List SweepRun

/-- A run begins with its query, or the next file of a run is announced. -/
inductive SweepsAction where
  | select (input : SweepInput)
  | announce (run : Nat) (input : SweepInput)

namespace SweepsWorld

def init (events : EventTable) : SweepsWorld := ⟨events, events.keys, []⟩

/-- The loop body of a run for one file. -/
def announceNext (world : SweepsWorld) (number : Nat) (input : SweepInput) (ttlHours : Int)
    (run : SweepRun) (upload : UploadFile) (rest : List UploadFile) : SweepsWorld :=
  match announceExpiring input ttlHours upload world.events with
  | .ok grown =>
      { events := grown
        issued := input.eventPk upload.pk :: world.issued
        runs := world.runs.set number
          (run.notify rest (grown.rows.drop world.events.rows.length)) }
  | .error (.database .integrityError) =>
      { world with runs := world.runs.set number (run.skip rest) }
  | .error error => { world with runs := world.runs.set number { run with raised := some error } }

def step (ttlHours notifyHours : Int) (files : FileTable) (world : SweepsWorld) :
    SweepsAction → Option SweepsWorld
  | .select input =>
      let selected := expiringFiles input ttlHours notifyHours files
      some { world with runs := world.runs ++ [.start selected] }
  | .announce number input =>
      match world.runs[number]? with
      | none => none
      | some run =>
          match run.raised, run.rest with
          | none, upload :: rest =>
              if input.eventPk upload.pk ∈ world.issued then none
              else some (world.announceNext number input ttlHours run upload rest)
          | _, _ => none

end SweepsWorld

/-- Sweeps over the files, all with these hours; one list of actions is one interleaving of
their transactions. -/
def sweeps (ttlHours notifyHours : Int) (files : FileTable) : Machine SweepsWorld SweepsAction :=
  ⟨SweepsWorld.step ttlHours notifyHours files⟩

/-! ## What the runs count -/

def noticeCount (events : EventTable) : Nat :=
  events.count (·.eventType = "file.expiring")

/-- A run that has ended returned; every file that it selected has a notice; it has notified of
as many files as it inserted events, and skipped the others. All runs together have notified
as often as notices were created. -/
structure SweepsWorld.CountsExactly (start : EventTable) (world : SweepsWorld) : Prop where
  ended : ∀ run ∈ world.runs, ∀ outcome, run.outcome? = some outcome →
    ∃ result, outcome = .ok result ∧
      (∀ upload ∈ run.selected, ∃ event ∈ world.events.rows, IsNoticeOf upload.pk event) ∧
      result.notified = run.inserted.length ∧
      result.notified + result.skipped = run.selected.length
  total : noticeCount world.events =
    noticeCount start + (world.runs.map (·.result.notified)).sum

/-- Where a run stands: every file that its loop has passed has a notice and is counted, and
what it has counted as notified are the rows that it inserted. -/
structure SweepRun.Tallied (events : EventTable) (run : SweepRun) : Prop where
  calm : run.raised = none
  named : ∀ upload ∈ run.rest, upload.file ≠ ""
  passed : ∃ passed, run.selected = passed ++ run.rest ∧
    run.result.notified + run.result.skipped = passed.length ∧
    ∀ upload ∈ passed, ∃ event ∈ events.rows, IsNoticeOf upload.pk event
  inserted : run.inserted.length = run.result.notified

structure SweepsInvariant (start : EventTable) (world : SweepsWorld) : Prop where
  issued : world.events.keys ⊆ world.issued
  counted : Contributed SweepRun.Tallied noticeCount (·.result.notified) (noticeCount start)
    world.events world.runs

section Step

variable {events grown : EventTable} {run : SweepRun} {upload : UploadFile}
  {rest : List UploadFile}

namespace SweepRun.Tallied

theorem start {selected : List UploadFile} (named : ∀ upload ∈ selected, upload.file ≠ "") :
    (SweepRun.start selected).Tallied events :=
  ⟨rfl, named, ⟨[], rfl, rfl, List.forall_mem_nil _⟩, rfl⟩

theorem mono (tallied : run.Tallied events) (kept : events.rows ⊆ grown.rows) :
    run.Tallied grown := by
  obtain ⟨passed, split, count, noticed⟩ := tallied.passed
  refine ⟨tallied.calm, tallied.named, ⟨passed, split, count, ?_⟩, tallied.inserted⟩
  intro upload member
  obtain ⟨event, old, notice⟩ := noticed upload member
  exact ⟨event, kept old, notice⟩

theorem notify (tallied : run.Tallied events) (left : run.rest = upload :: rest)
    {event : OutboxEvent} (rows : grown.rows = events.rows ++ [event])
    (notice : IsNoticeOf upload.pk event) :
    (run.notify rest (grown.rows.drop events.rows.length)).Tallied grown := by
  have kept : events.rows ⊆ grown.rows := rows ▸ List.subset_append_left _ _
  obtain ⟨passed, split, count, noticed⟩ := (tallied.mono kept).passed
  refine ⟨tallied.calm, ?_, ⟨passed ++ [upload], ?_, ?_, ?_⟩, ?_⟩
  · intro later member
    exact tallied.named later (left ▸ List.mem_cons_of_mem _ member)
  · simpa [SweepRun.notify, left] using split
  · simp only [SweepRun.notify, List.length_append, List.length_singleton, ← count]
    omega
  · refine List.forall_mem_append.mpr ⟨noticed, List.forall_mem_singleton.mpr ⟨event, ?_, notice⟩⟩
    rw [rows]
    exact List.mem_append_right _ List.mem_cons_self
  · simp [SweepRun.notify, rows, tallied.inserted]

theorem skip (tallied : run.Tallied events) (left : run.rest = upload :: rest)
    (noticed : ∃ event ∈ events.rows, IsNoticeOf upload.pk event) :
    (run.skip rest).Tallied events := by
  obtain ⟨passed, split, count, before⟩ := tallied.passed
  refine ⟨tallied.calm, ?_, ⟨passed ++ [upload], ?_, ?_, ?_⟩, tallied.inserted⟩
  · intro later member
    exact tallied.named later (left ▸ List.mem_cons_of_mem _ member)
  · simpa [SweepRun.skip, left] using split
  · simp only [SweepRun.skip, List.length_append, List.length_singleton, ← count]
    omega
  · exact List.forall_mem_append.mpr ⟨before, List.forall_mem_singleton.mpr noticed⟩

end SweepRun.Tallied

theorem noticeCount_append {event : OutboxEvent} (rows : grown.rows = events.rows ++ [event])
    (type : event.eventType = "file.expiring") : noticeCount grown = noticeCount events + 1 := by
  simp [noticeCount, Table.count, rows, type]

namespace SweepsInvariant

variable {ttlHours notifyHours : Int} {files : FileTable} {start : EventTable}
  {world next : SweepsWorld}

theorem announceNext (invariant : SweepsInvariant start world) {number : Nat}
    {input : SweepInput} (found : world.runs[number]? = some run)
    (left : run.rest = upload :: rest) (fresh : input.eventPk upload.pk ∉ world.issued) :
    SweepsInvariant start (world.announceNext number input ttlHours run upload rest) := by
  have tallied := invariant.counted.known run (List.mem_of_getElem? found)
  have named : upload.file ≠ "" := tallied.named upload (left ▸ List.mem_cons_self)
  rcases announceExpiring_answers input ttlHours world.events named with
    ⟨grown, announced⟩ | refused
  · obtain ⟨event, rows, notice, key, _⟩ := announceExpiring_ok announced
    simp only [SweepsWorld.announceNext, announced]
    refine ⟨?_, invariant.counted.turn found ?_ (tallied.notify left rows notice) ?_⟩
    · rw [Table.keys, rows, List.map_append, List.map_singleton, key]
      intro pk member
      rcases List.mem_append.mp member with old | new
      · exact List.mem_cons_of_mem _ (invariant.issued old)
      · rw [List.mem_singleton.mp new]
        exact List.mem_cons_self
    · intro other known
      exact known.mono (rows ▸ List.subset_append_left _ _)
    · rw [noticeCount_append rows notice.1]
      simp only [SweepRun.notify]
      omega
  · have noticed := announceExpiring_refused (fun old => fresh (invariant.issued old)) refused
    simp only [SweepsWorld.announceNext, refused]
    exact ⟨invariant.issued,
      invariant.counted.turn found (fun _ known => known) (tallied.skip left noticed) rfl⟩

theorem step (named : ∀ upload ∈ files.rows, upload.file ≠ "")
    (invariant : SweepsInvariant start world) {action : SweepsAction}
    (stepped : (sweeps ttlHours notifyHours files).step world action = some next) :
    SweepsInvariant start next := by
  simp only [sweeps] at stepped
  cases action with
  | select input =>
      cases stepped
      refine ⟨invariant.issued, invariant.counted.join (.start ?_) rfl⟩
      intro upload member
      exact named upload (mem_expiringFiles_iff.mp member).1
  | announce number input =>
      simp only [SweepsWorld.step] at stepped
      split at stepped
      · cases stepped
      · next run found =>
        split at stepped
        · next upload rest calm left =>
          split_ifs at stepped with fresh
          cases stepped
          exact invariant.announceNext found left fresh
        · cases stepped

end SweepsInvariant

end Step

/-- In every interleaving of the transactions of any number of sweeps over files that name
their blobs, the counts are exact. -/
theorem concurrent_sweeps_count_exactly {ttlHours notifyHours : Int} {files : FileTable}
    (named : ∀ upload ∈ files.rows, upload.file ≠ "") {start : EventTable}
    {actions : List SweepsAction} {world : SweepsWorld}
    (ran : (sweeps ttlHours notifyHours files).run (.init start) actions = some world) :
    world.CountsExactly start := by
  have begun : SweepsInvariant start (.init start) := ⟨List.Subset.refl _, .start⟩
  have invariant : SweepsInvariant start world :=
    Machine.run_preserves (fun _ _ _ holds stepped => holds.step named stepped) begun ran
  refine ⟨?_, invariant.counted.total⟩
  intro run member outcome ended
  have tallied := invariant.counted.known run member
  obtain ⟨passed, split, count, noticed⟩ := tallied.passed
  cases left : run.rest with
  | nil =>
      simp only [SweepRun.outcome?, tallied.calm, left, Option.some.injEq] at ended
      subst ended
      rw [left, List.append_nil] at split
      exact ⟨run.result, rfl, split ▸ noticed, tallied.inserted.symm, split ▸ count⟩
  | cons upload rest =>
      simp [SweepRun.outcome?, tallied.calm, left] at ended

namespace Sample

def sweepWithKey (key : Nat) : SweepInput := ⟨hours 24, .stored, fun _ => uuid key, id⟩

/-- Both sweeps have selected the file before one of them announces it. -/
def meetingSweeps : List SweepsAction :=
  [.select (sweepWithKey 0), .select (sweepWithKey 0), .announce 0 (sweepWithKey 0),
    .announce 1 (sweepWithKey 1)]

def afterMeeting : SweepsWorld :=
  ((sweeps 24 1 oneStored.database.files).run (.init .empty) meetingSweeps).get (by decide)

end Sample

theorem concurrent_sweeps_count_exactly_meeting :
    Sample.afterMeeting.CountsExactly .empty := by
  have named : ∀ upload ∈ Sample.oneStored.database.files.rows, upload.file ≠ "" := by decide
  exact concurrent_sweeps_count_exactly named (Option.some_get _).symm

/-! ## A run on its own -/

section Alone

variable {ttlHours notifyHours : Int} {files : FileTable} {input : SweepInput} {number : Nat}
  {run : SweepRun}

/-- The loop body goes on to the other files with the counters of the whole loop, or it ends
the run as it ends the loop. -/
theorem SweepsWorld.announceNext_cases (world : SweepsWorld) (upload : UploadFile)
    (rest : List UploadFile) (within : number < world.runs.length) (next : SweepsWorld)
    (shape : next = world.announceNext number input ttlHours run upload rest) :
    (∃ later : SweepRun, next.runs[number]? = some later ∧ later.raised = run.raised ∧
      later.rest = rest ∧ next.issued ⊆ input.eventPk upload.pk :: world.issued ∧
      announceAll input ttlHours (upload :: rest) run.result world.events =
        announceAll input ttlHours rest later.result next.events) ∨
    ∃ error, next.runs[number]? = some { run with raised := some error } ∧
      announceAll input ttlHours (upload :: rest) run.result world.events =
        (next.events, .error error) := by
  subst shape
  simp only [SweepsWorld.announceNext, announceAll]
  cases announceExpiring input ttlHours upload world.events with
  | ok grown =>
      exact .inl ⟨_, List.getElem?_set_self within, rfl, rfl, List.Subset.refl _, rfl⟩
  | error error =>
      cases error with
      | database error =>
          cases error with
          | integrityError =>
              exact .inl
                ⟨_, List.getElem?_set_self within, rfl, rfl, List.subset_cons_self _ _, rfl⟩
          | _ => exact .inr ⟨_, List.getElem?_set_self within, rfl⟩
      | _ => exact .inr ⟨_, List.getElem?_set_self within, rfl⟩

theorem announceAll_counted {rest : List UploadFile} {world : SweepsWorld}
    (found : world.runs[number]? = some run) (calm : run.raised = none) (left : run.rest = rest)
    (keys : KeysFresh input rest world.issued) :
    ∃ actions later ended,
      (sweeps ttlHours notifyHours files).run world actions = some later ∧
      later.events = (announceAll input ttlHours rest run.result world.events).1 ∧
      later.runs[number]? = some ended ∧
      ended.outcome? = some (announceAll input ttlHours rest run.result world.events).2 := by
  induction rest generalizing world run with
  | nil =>
      refine ⟨[], world, run, rfl, rfl, found, ?_⟩
      simp only [SweepRun.outcome?, calm, left, announceAll]
  | cons upload rest ih =>
      obtain ⟨within, _⟩ := List.getElem?_eq_some_iff.mp found
      have stepped : (sweeps ttlHours notifyHours files).step world (.announce number input) =
          some (world.announceNext number input ttlHours run upload rest) := by
        simp only [sweeps, SweepsWorld.step, found, calm, left, keys.fresh upload
          List.mem_cons_self, if_false]
      rcases world.announceNext_cases upload rest within _ rfl with
        ⟨later, standing, same, others, issued, goesOn⟩ | ⟨error, standing, stops⟩
      · obtain ⟨actions, final, ended, ran, ends⟩ :=
          ih standing (same.trans calm) others (keys.tail issued)
        refine ⟨.announce number input :: actions, final, ended, ?_, ?_⟩
        · rw [Machine.run_cons, stepped]
          exact ran
        · rw [goesOn]
          exact ends
      · refine ⟨[.announce number input], _, _, ?_, ?_, standing, ?_⟩
        · rw [Machine.run_cons, stepped]
          rfl
        · rw [stops]
        · rw [stops]
          rfl

/-- A sweep between whose transactions nothing happens leaves and returns what
`notify_expiring_files` leaves and returns. -/
theorem notifyExpiringFiles_counted (settings : Settings) (database : Database)
    (world : SweepsWorld) (same : world.events = database.events)
    (keys : KeysFresh input (expiringFiles input ttlHours notifyHours database.files)
      world.issued) :
    ∃ actions later ended,
      (sweeps ttlHours notifyHours database.files).run world actions = some later ∧
      later.events =
        (notifyExpiringFiles settings input (some ttlHours) (some notifyHours)
          database).1.events ∧
      later.runs[world.runs.length]? = some ended ∧
      ended.outcome? =
        some (notifyExpiringFiles settings input (some ttlHours) (some notifyHours)
          database).2 := by
  let begun : SweepsWorld := { world with
    runs := world.runs ++ [.start (expiringFiles input ttlHours notifyHours database.files)] }
  have events : begun.events = database.events := same
  have standing : begun.runs[world.runs.length]? =
      some (.start (expiringFiles input ttlHours notifyHours database.files)) := by
    simp only [begun, List.getElem?_concat_length]
  obtain ⟨actions, later, ended, ran, left, final, outcome⟩ :
      ∃ actions later ended, (sweeps ttlHours notifyHours database.files).run begun actions =
        some later ∧ later.events = _ ∧ later.runs[world.runs.length]? = some ended ∧
        ended.outcome? = some _ := announceAll_counted standing rfl rfl keys
  refine ⟨.select input :: actions, later, ended, ?_, ?_, final, ?_⟩
  · rw [Machine.run_cons]
    exact ran
  · rw [left, events]
    rfl
  · rw [outcome, events]
    rfl

end Alone

end Doorito.Portal
