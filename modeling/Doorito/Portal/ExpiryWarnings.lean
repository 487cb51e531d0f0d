import Doorito.Portal.ExpiryNotices

/-! Whether a file is announced before it is deleted. A sweep announces every file that it
found, in its order, unless an earlier one did. A cleanup deletes what is old enough at its
own beginning, whether or not a sweep has found it. -/

set_option autoImplicit false

namespace Doorito.Portal

open Foundation Common

/-- A cleanup that deletes the row of a STORED file does so after a notice was emitted. -/
def DeletesNoticed (world : ExpiryWorld) : ExpiryAction → Prop
  | .deleteFiles number =>
      ∀ totalExpired batchPks,
        world.fileCleanups[number]? = some (.deleting totalExpired batchPks []) →
          ∀ row ∈ world.files.rows, row.pk ∈ batchPks → row.status = .stored →
            row.pk ∈ world.announced
  | _ => True

/-- The file was STORED, and older than the time to live less the notice, when the sweep
began, and the sweep has come past it. -/
def SweepPhase.HasPassed (phase : SweepPhase) (file : Uuid) : Prop :=
  ∃ row ∈ phase.sweep.found.rows, row.pk = file ∧
    row.isExpiring phase.sweep.cutoff = true ∧ row ∉ phase.rest

/-- Every STORED file whose row a cleanup deletes has been passed by a sweep. -/
def DeletesSwept (world : ExpiryWorld) : ExpiryAction → Prop
  | .deleteFiles number =>
      ∀ totalExpired batchPks,
        world.fileCleanups[number]? = some (.deleting totalExpired batchPks []) →
          ∀ row ∈ world.files.rows, row.pk ∈ batchPks → row.status = .stored →
            ∃ phase ∈ world.sweeps, phase.HasPassed row.pk
  | _ => True

/-- The files left to a sweep are files that it found, each once. -/
structure SweepPhase.KeepsFound (phase : SweepPhase) : Prop where
  once : phase.rest.Nodup
  found : ∀ upload ∈ phase.rest,
    upload ∈ phase.sweep.found.rows ∧ upload.isExpiring phase.sweep.cutoff = true

structure WarningInvariant (world : ExpiryWorld) : Prop where
  rowsIssued : world.outbox.RowsIssued
  origin : ∀ event ∈ world.events.rows, ∀ file, IsNoticeOf file event → file ∈ world.announced
  keepsFound : ∀ phase ∈ world.sweeps, phase.KeepsFound
  passed : ∀ file, file ∈ world.announced ↔ ∃ phase ∈ world.sweeps, phase.HasPassed file

section Step

variable {settings : Settings} {retentionHours : Int} {world next : ExpiryWorld}
  {action : ExpiryAction}

theorem SweepPhase.HasPassed.later {phase later : SweepPhase} {file : Uuid}
    (passed : phase.HasPassed file) (same : later.sweep = phase.sweep)
    (fewer : later.rest ⊆ phase.rest) : later.HasPassed file := by
  obtain ⟨row, found, key, expiring, gone⟩ := passed
  exact ⟨row, same ▸ found, key, same ▸ expiring, fun left => gone (fewer left)⟩

theorem keepsFound_beginSweep (now : Time) (order : RowOrder UploadFile) (files : FileTable) :
    (beginSweep settings now order files).KeepsFound := by
  rw [beginSweep]
  constructor
  · rw [SweepPhase.rest_goOn, (order.perm _).nodup_iff]
    exact files.unique.of_map.filter _
  · intro upload left
    rw [SweepPhase.rest_goOn, (order.perm _).mem_iff] at left
    rw [SweepPhase.sweep_goOn]
    exact List.mem_filter.mp left

/-- A sweep that begins has everything that it found before it. -/
theorem not_hasPassed_beginSweep (now : Time) (order : RowOrder UploadFile) (files : FileTable)
    (file : Uuid) : ¬ (beginSweep settings now order files).HasPassed file := by
  intro passed
  obtain ⟨row, found, _, expiring, gone⟩ := passed
  simp only [beginSweep, SweepPhase.sweep_goOn, SweepPhase.rest_goOn] at found expiring gone
  exact gone ((order.perm _).mem_iff.mpr (List.mem_filter.mpr ⟨found, expiring⟩))

theorem SweepPhase.KeepsFound.goOn {sweep : Sweep} {upload : UploadFile}
    {rest : List UploadFile} (keeps : (announcing sweep (upload :: rest)).KeepsFound) :
    (sweep.goOn rest).KeepsFound := by
  constructor
  · rw [rest_goOn]
    exact (List.nodup_cons.mp keeps.once).2
  · intro later left
    rw [rest_goOn] at left
    rw [sweep_goOn]
    exact keeps.found later (List.mem_cons_of_mem _ left)

/-- The loop goes past the file that is next, and past no other. -/
theorem hasPassed_goOn_iff {sweep : Sweep} {upload : UploadFile} {rest : List UploadFile}
    (keeps : (SweepPhase.announcing sweep (upload :: rest)).KeepsFound) {file : Uuid} :
    (sweep.goOn rest).HasPassed file ↔
      upload.pk = file ∨ (SweepPhase.announcing sweep (upload :: rest)).HasPassed file := by
  constructor
  · intro passed
    obtain ⟨row, found, key, expiring, gone⟩ := passed
    rw [SweepPhase.sweep_goOn] at found expiring
    rw [SweepPhase.rest_goOn] at gone
    by_cases next : row = upload
    · exact .inl (next ▸ key)
    · exact .inr ⟨row, found, key, expiring, by simp [SweepPhase.rest, next, gone]⟩
  · intro either
    rcases either with rfl | passed
    · obtain ⟨found, expiring⟩ := keeps.found upload List.mem_cons_self
      refine ⟨upload, ?_, rfl, ?_, ?_⟩
      · rw [SweepPhase.sweep_goOn]
        exact found
      · rw [SweepPhase.sweep_goOn]
        exact expiring
      · rw [SweepPhase.rest_goOn]
        exact (List.nodup_cons.mp keeps.once).1
    · refine passed.later (SweepPhase.sweep_goOn sweep rest) ?_
      rw [SweepPhase.rest_goOn]
      exact List.subset_cons_self _ _

theorem announced_subset (issued : world.outbox.RowsIssued)
    (stepped : (expiry settings retentionHours).step world action = some next) :
    world.announced ⊆ next.announced := by
  rcases step_announced issued stepped with same | ⟨_, _, _, _, _, announced, _⟩
  · rw [same]
    exact List.Subset.refl _
  · rw [announced]
    exact List.subset_cons_self _ _

/-- A notice in the table continues an older one, or was announced by the step. -/
theorem step_notice_origin (issued : world.outbox.RowsIssued)
    (stepped : (expiry settings retentionHours).step world action = some next)
    {event : OutboxEvent} (member : event ∈ next.events.rows) {file : Uuid}
    (notice : IsNoticeOf file event) :
    (∃ old ∈ world.events.rows, IsNoticeOf file old) ∨ file ∈ next.announced := by
  cases step_effect stepped with
  | called call is made =>
      left
      obtain ⟨other, _, state, moved, rfl⟩ := call_eq_some made
      obtain ⟨more, rows, stored⟩ := portal_events moved other
      change event ∈ state.database.events.rows at member
      rw [rows, List.mem_append] at member
      rcases member with old | new
      · exact ⟨event, old, notice⟩
      · have impossible := notice.1.symm.trans (stored event new).1
        exact absurd impossible (by decide)
  | delivered step later is admitted moved shape =>
      left
      subst shape
      rcases step_row_origin moved member with
        old | ⟨_, _, _, rfl, _⟩ | ⟨_, _, _, _, old, _, oldMember, saves⟩ |
        ⟨_, _, old, _, oldMember, _, _, rfl⟩
      · exact ⟨event, old, notice⟩
      · cases admitted
      · obtain ⟨_, _, _, _, _, _, _, _, _, rfl⟩ := saves
        exact ⟨old, oldMember, notice⟩
      · exact ⟨old, oldMember, notice⟩
  | announced number input sweep upload rest is found fresh shape =>
      subst shape
      cases announceNext_effect number sweep rest (not_mem_keys_of_fresh issued fresh) with
      | emitted added addedNotice _ _ events _ announced =>
          rw [events, List.mem_append, List.mem_singleton] at member
          rcases member with old | rfl
          · exact .inl ⟨event, old, notice⟩
          · right
            rw [announced, isNoticeOf_injective notice addedNotice]
            exact List.mem_cons_self
      | skipped _ shape =>
          rw [shape] at member
          exact .inl ⟨event, member, notice⟩
      | raised shape =>
          rw [shape] at member
          exact .inl ⟨event, member, notice⟩
  | deleted number totalExpired batchPks is found files events =>
      exact .inl ⟨event, events ▸ member, notice⟩
  | quiet events => exact .inl ⟨event, events ▸ member, notice⟩

theorem WarningInvariant.step (invariant : WarningInvariant world)
    (stepped : (expiry settings retentionHours).step world action = some next) :
    WarningInvariant next := by
  have issued := invariant.rowsIssued
  have grows := announced_subset issued stepped
  have known : ∀ file, (∃ old ∈ world.events.rows, IsNoticeOf file old) →
      file ∈ next.announced := by
    intro file noticed
    obtain ⟨old, member, notice⟩ := noticed
    exact grows (invariant.origin old member file notice)
  have before : ∀ phase ∈ world.sweeps, ∀ file, phase.HasPassed file → file ∈ next.announced :=
    fun phase member file passed =>
      grows ((invariant.passed file).mpr ⟨phase, member, passed⟩)
  have stays : ∀ file ∈ world.announced, ∃ phase ∈ next.sweeps, phase.HasPassed file := by
    intro file announced
    obtain ⟨phase, old, passed⟩ := (invariant.passed file).mp announced
    obtain ⟨later, member, same, fewer⟩ := step_sweep_fate issued stepped old
    exact ⟨later, member, passed.later same fewer⟩
  refine ⟨step_rowsIssued issued stepped, ?_, ?_, ?_⟩
  · intro event member file notice
    rcases step_notice_origin issued stepped member notice with old | new
    · exact known file old
    · exact new
  · intro phase member
    cases step_sweep_origin issued stepped member with
    | kept old => exact invariant.keepsFound phase old
    | ended sweep rest was shape =>
        have keeps := invariant.keepsFound _ was
        rw [shape]
        exact ⟨keeps.once, keeps.found⟩
    | begun now order shape =>
        rw [shape]
        exact keepsFound_beginSweep now order world.files
    | passed sweep upload rest was shape done =>
        rw [shape]
        exact (invariant.keepsFound _ was).goOn
  · intro file
    constructor
    · intro announced
      rcases step_announced issued stepped with
        same | ⟨sweep, upload, rest, was, member, grown, _⟩
      · exact stays file (same ▸ announced)
      · rw [grown, List.mem_cons] at announced
        rcases announced with rfl | earlier
        · exact ⟨_, member, (hasPassed_goOn_iff (invariant.keepsFound _ was)).mpr (.inl rfl)⟩
        · exact stays file earlier
    · intro swept
      obtain ⟨phase, member, passed⟩ := swept
      cases step_sweep_origin issued stepped member with
      | kept old => exact before phase old file passed
      | ended sweep rest was shape =>
          subst shape
          exact before _ was file passed
      | begun now order shape =>
          rw [shape] at passed
          exact absurd passed (not_hasPassed_beginSweep now order world.files file)
      | passed sweep upload rest was shape done =>
          rw [shape] at passed
          rcases (hasPassed_goOn_iff (invariant.keepsFound _ was)).mp passed with rfl | earlier
          · exact done.elim id (known upload.pk)
          · exact before _ was file earlier

theorem deletesNoticed_iff_deletesSwept (invariant : WarningInvariant world) :
    DeletesNoticed world action ↔ DeletesSwept world action := by
  cases action with
  | deleteFiles number =>
      constructor
      · intro noticed totalExpired batchPks found row member chosen stored
        exact (invariant.passed row.pk).mp (noticed totalExpired batchPks found row member chosen
          stored)
      · intro swept totalExpired batchPks found row member chosen stored
        exact (invariant.passed row.pk).mpr (swept totalExpired batchPks found row member chosen
          stored)
  | _ => exact Iff.rfl

end Step

theorem warningInvariant_init {start : UploadState}
    (unnoticed : ∀ event ∈ start.database.events.rows, event.eventType ≠ "file.expiring") :
    WarningInvariant (.init start) := by
  refine ⟨fun row member => Table.mem_keys_of_mem member, ?_, ?_, ?_⟩
  · intro event member file notice
    exact absurd notice.1 (unnoticed event member)
  · intro phase none
    cases none
  · intro file
    refine iff_of_false List.not_mem_nil ?_
    intro swept
    obtain ⟨phase, began, _⟩ := swept
    cases began

/-- Under any settings and in every interleaving of any runs, from a state without notices:
every deleted STORED file was announced before if and only if every one was found by a sweep
that had come past it. -/
theorem stored_files_noticed_iff (settings : Settings) (retentionHours : Int)
    {start : UploadState}
    (unnoticed : ∀ event ∈ start.database.events.rows, event.eventType ≠ "file.expiring")
    (actions : List ExpiryAction) :
    (expiry settings retentionHours).Meets DeletesNoticed (.init start) actions ↔
      (expiry settings retentionHours).Meets DeletesSwept (.init start) actions := by
  have holds := warningInvariant_init unnoticed
  constructor
  · exact Machine.Meets.of_invariant WarningInvariant
      (fun _ _ _ invariant _ stepped => invariant.step stepped)
      (fun _ _ invariant noticed => (deletesNoticed_iff_deletesSwept invariant).mp noticed) holds
  · exact Machine.Meets.of_invariant WarningInvariant
      (fun _ _ _ invariant _ stepped => invariant.step stepped)
      (fun _ _ invariant swept => (deletesNoticed_iff_deletesSwept invariant).mpr swept) holds

/-! ## The schedule -/

def sweepStarts (actions : List ExpiryAction) : List Time :=
  actions.filterMap fun
    | .beginSweep now _ => some now
    | _ => none

def cleanupStarts (actions : List ExpiryAction) : List Time :=
  actions.filterMap fun
    | .countExpired now => some now
    | _ => none

/-- The full hour at which beat enqueued a task that starts within the hour. -/
def hourOf (now : Time) : Int := now / hours 1

/-- Beat enqueues a sweep at every full hour and a file cleanup at every sixth; each starts
with a delay below one hour. -/
structure Scheduled (actions : List ExpiryAction) (first : Int) (count : Nat) : Prop where
  inOrder : InOrder actions
  sweeps : (sweepStarts actions).map hourOf = (List.range count).map (first + ·)
  cleanups : (cleanupStarts actions).map hourOf =
    ((List.range count).map (first + ·)).filter (6 ∣ ·)

theorem call_of_step {world : ExpiryWorld} {call : PortalAction} {state : UploadState}
    (other : call.isSweep = false) (noFile : call.fileKey? = none)
    (noEvent : call.eventKey? = none) (moved : portal.step world.state call = some state) :
    world.call call = some { world with state } := by
  simp [ExpiryWorld.call, other, noFile, noEvent, moved]

/-! ## A cleanup before the sweep of its hour -/

namespace Sample

def quietHour (hour : Nat) : List ExpiryAction :=
  .beginSweep (hours hour) .stored :: if 6 ∣ hour then [.countExpired (hours hour)] else []

def cleanUp (number : Nat) (now : Time) : List ExpiryAction :=
  [.countExpired now, .selectExpired number, .readExpired number .stored,
    .deleteBlob number fun _ => false, .deleteFiles number]

def quietDay : List ExpiryAction := (List.range 23).flatMap fun hour => quietHour (hour + 1)

def cleanUpFirst : List ExpiryAction :=
  quietHour 0 ++ chunkedUpload.map .portal ++ quietDay ++ cleanUp 4 (hours 24 + seconds 3240) ++
    [.beginSweep (hours 24 + seconds 3420) .stored]

theorem cleanUpFirst_scheduled : Scheduled cleanUpFirst 0 25 :=
  ⟨by decide, by decide, by decide⟩

def chunkStored : ExpiryWorld :=
  { ExpiryWorld.init .empty with
    state := ⟨chunkReceived.writeCompletion 0 (uuid 1) file.pk, .empty⟩
    issuedFiles := [file.pk]
    sweeps := [beginSweep defaults 0 .stored .empty]
    fileCleanups := [.ended] }

def uploadingFile (database : Database) : ExpiryWorld :=
  { chunkStored with state := ⟨database, .empty⟩ }

theorem chunkStored_run : (expiry defaults 168).run (.init .empty)
    (quietHour 0 ++ chunkedUpload.map .portal) = some chunkStored := by
  have created : portal.step (uploadingFile fileStarted).state
      (.createUploadSession 0 (uuid 1) file.pk 500 (some 500)) = some ⟨chunkExpected, .empty⟩ := by
    simp only [portal, uploadingFile, chunkExpected_created]
  have completed : portal.step (uploadingFile chunkReceived).state
      (.completeUploadSession 0 (uuid 1)) = some chunkStored.state := by
    simp only [portal, uploadingFile, chunkReceived_completes]
    rfl
  have creates : (expiry defaults 168).step (uploadingFile fileStarted)
      (.portal (.createUploadSession 0 (uuid 1) file.pk 500 (some 500))) =
        some (uploadingFile chunkExpected) := call_of_step rfl rfl rfl created
  have completes : (expiry defaults 168).step (uploadingFile chunkReceived)
      (.portal (.completeUploadSession 0 (uuid 1))) = some chunkStored :=
    call_of_step rfl rfl rfl completed
  refine (Machine.run_cons_eq_some_iff _).mpr ⟨_, rfl, ?_⟩
  refine (Machine.run_cons_eq_some_iff _).mpr ⟨_, rfl, ?_⟩
  refine (Machine.run_cons_eq_some_iff _).mpr ⟨uploadingFile fileStarted, rfl, ?_⟩
  refine (Machine.run_cons_eq_some_iff _).mpr ⟨_, creates, ?_⟩
  refine (Machine.run_cons_eq_some_iff _).mpr ⟨uploadingFile chunkReceived, rfl, ?_⟩
  exact (Machine.run_cons_eq_some_iff _).mpr ⟨_, completes, rfl⟩

def untilDelete : List ExpiryAction :=
  quietDay ++ (cleanUp 4 (hours 24 + seconds 3240)).take 4

def dayLater : ExpiryWorld :=
  ((expiry defaults 168).run chunkStored untilDelete).getD chunkStored

end Sample

/-- The sweep begins an hour before the cleanup, and the file is deleted. -/
theorem stored_files_noticed_iff_sweepFirst :
    (expiry Sample.defaults 168).Meets DeletesNoticed (.init Sample.oneStored)
      (Sample.sweep 0 (hours 24) ++ Sample.cleanUp 0 (hours 25)) := by
  refine (stored_files_noticed_iff Sample.defaults 168 (List.forall_mem_nil _) _).mpr ?_
  refine .cons trivial rfl (.cons trivial rfl (.cons trivial rfl (.cons trivial rfl
    (.cons trivial rfl (.cons trivial rfl (.cons ?_ rfl trivial))))))
  intro totalExpired batchPks _ row member _ _
  obtain rfl := List.mem_singleton.mp member
  exact ⟨.returned ⟨hours 1, 24, Sample.oneStored.database.files⟩, List.mem_cons_self,
    Sample.storedFile, List.mem_cons_self, rfl, by decide, List.not_mem_nil⟩

/-- On the default schedule: the file is created at a full hour. 24 hours later the cleanup
starts before the sweep of that hour, and the last sweep before found the file too young. -/
theorem stored_file_deleted_unnoticed :
    ¬ ∀ (settings : Settings) (retentionHours : Int) (start : UploadState)
      (actions : List ExpiryAction) (first : Int) (count : Nat), settings.ttlHours = 24 →
      settings.notifyHours = 1 → start.database.files.rows = [] →
      start.database.events.rows = [] → Scheduled actions first count →
      (expiry settings retentionHours).Meets DeletesNoticed (.init start) actions := by
  intro noticed
  have meets := noticed Sample.defaults 168 .empty Sample.cleanUpFirst 0 25 rfl rfl rfl rfl
    Sample.cleanUpFirst_scheduled
  have reached : (expiry Sample.defaults 168).run (.init .empty)
      (Sample.quietHour 0 ++ Sample.chunkedUpload.map .portal ++ Sample.untilDelete) =
        some Sample.dayLater :=
    (Machine.run_append_eq_some_iff _).mpr ⟨_, Sample.chunkStored_run, rfl⟩
  have deletes := Machine.meets_iff_forall_split.mp meets _ (.deleteFiles 4) _ _ _ rfl reached rfl
  have listed := deletes 1 [Sample.file.pk] rfl Sample.file.store List.mem_cons_self
    List.mem_cons_self rfl
  exact absurd listed (by decide)

end Doorito.Portal
