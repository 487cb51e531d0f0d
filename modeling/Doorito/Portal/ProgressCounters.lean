import Doorito.Portal.SessionWorld

/-! When the progress counters are exact. The calls that stand between their two
statements are the ghost of the proof: what they have inserted is not counted yet. A
counter update that does not fit its columns ends a call, and its part stays uncounted. -/

set_option autoImplicit false

namespace Doorito.Portal

open Foundation Common

namespace SessionWorld

/-- The sizes of the parts of the calls that stand between their two statements. -/
def openSizes (world : SessionWorld) (session : Uuid) : List Nat :=
  (world.calls.filterMap id).filterMap fun call =>
    if call.session = session then some call.sizeBytes else none

end SessionWorld

def Database.partSizes (database : Database) (session : Uuid) : List Nat :=
  (database.partsOf session).map (·.sizeBytes)

/-- The counters of a session, and the sizes that open calls have yet to add to them,
make up the number of parts and the sum of their sizes. -/
structure UploadSession.Tallies (row : UploadSession) (openSizes partSizes : List Nat) :
    Prop where
  count : row.completedParts + openSizes.length = partSizes.length
  bytes : row.bytesReceived + openSizes.sum = partSizes.sum

def CountersExact (session : Uuid) (world : SessionWorld) : Prop :=
  ∀ row ∈ world.database.sessions.rows, row.pk = session →
    row.Tallies (world.openSizes session) (world.database.partSizes session)

/-- A counter update of the session finds room for both sums in their columns. -/
def CountersFit (session : Uuid) (world : SessionWorld) : SessionAction → Prop
  | .countPart call =>
      ∀ sizeBytes, world.calls[call]? = some (some ⟨session, sizeBytes⟩) →
        ∀ row ∈ world.database.sessions.rows, row.pk = session → row.countFits sizeBytes
  | _ => True

namespace UploadSession.Tallies

variable {row : UploadSession} {openSizes left partSizes : List Nat} {sizeBytes : Nat}

theorem add_open (tallies : row.Tallies openSizes partSizes) :
    row.Tallies (openSizes ++ [sizeBytes]) (partSizes ++ [sizeBytes]) := by
  constructor
  · have count := tallies.count
    simp only [List.length_append, List.length_singleton]
    omega
  · have bytes := tallies.bytes
    simp only [List.sum_append, List.sum_singleton]
    omega

theorem close (tallies : row.Tallies openSizes partSizes)
    (closed : openSizes.Perm (sizeBytes :: left)) :
    (row.counted sizeBytes).Tallies left partSizes := by
  constructor
  · have count := tallies.count
    rw [closed.length_eq, List.length_cons] at count
    simp only [UploadSession.counted]
    omega
  · have bytes := tallies.bytes
    rw [closed.sum_eq, List.sum_cons] at bytes
    simp only [UploadSession.counted]
    omega

/-- A call that ends without being counted leaves the counters behind. -/
theorem not_dropped (tallies : row.Tallies openSizes partSizes)
    (closed : openSizes.Perm (sizeBytes :: left)) : ¬ row.Tallies left partSizes := by
  intro dropped
  have before := tallies.count
  have after := dropped.count
  rw [closed.length_eq, List.length_cons] at before
  omega

theorem of_none_open (tallies : row.Tallies [] partSizes) :
    row.completedParts = partSizes.length ∧ row.bytesReceived = partSizes.sum :=
  ⟨tallies.count, tallies.bytes⟩

end UploadSession.Tallies

section Parts

variable {database grown : Database} {session : Uuid} {part : UploadPart}

theorem partSizes_append (rows : grown.parts.rows = database.parts.rows ++ [part])
    (same : part.session = session) :
    grown.partSizes session = database.partSizes session ++ [part.sizeBytes] := by
  simp [Database.partSizes, Database.partsOf, rows, same]

theorem partSizes_append_other (rows : grown.parts.rows = database.parts.rows ++ [part])
    (other : part.session ≠ session) :
    grown.partSizes session = database.partSizes session := by
  simp [Database.partSizes, Database.partsOf, rows, other]

end Parts

section Calls

variable {world : SessionWorld} {session : Uuid} {record : OpenCall} {call : Nat}

theorem openSizes_open {database : Database} (same : record.session = session) :
    SessionWorld.openSizes ⟨database, world.calls ++ [some record]⟩ session =
      world.openSizes session ++ [record.sizeBytes] := by
  simp [SessionWorld.openSizes, same]

theorem openSizes_open_other {database : Database} (other : record.session ≠ session) :
    SessionWorld.openSizes ⟨database, world.calls ++ [some record]⟩ session =
      world.openSizes session := by
  simp [SessionWorld.openSizes, other]

theorem openSizes_rejected :
    SessionWorld.openSizes { world with calls := world.calls ++ [none] } session =
      world.openSizes session := by
  simp [SessionWorld.openSizes]

theorem calls_split (found : world.calls[call]? = some (some record)) (database : Database) :
    ∃ before after, world.calls = before ++ some record :: after ∧
      (world.endCall call database).calls = before ++ none :: after := by
  obtain ⟨within, is⟩ := List.getElem?_eq_some_iff.mp found
  obtain ⟨before, after, split, _, changed⟩ :
      ∃ before after, world.calls = before ++ world.calls[call] :: after ∧
        before.length = call ∧ world.calls.set call none = before ++ none :: after :=
    List.exists_of_set within
  exact ⟨before, after, is ▸ split, changed⟩

theorem openSizes_endCall (found : world.calls[call]? = some (some record))
    (same : record.session = session) (database : Database) :
    (world.openSizes session).Perm
      (record.sizeBytes :: (world.endCall call database).openSizes session) := by
  obtain ⟨before, after, split, ended⟩ := calls_split found database
  simp only [SessionWorld.openSizes, split, ended, List.filterMap_append, List.filterMap_cons,
    id, same, if_true]
  exact List.perm_middle

theorem openSizes_endCall_other (found : world.calls[call]? = some (some record))
    (other : record.session ≠ session) (database : Database) :
    (world.endCall call database).openSizes session = world.openSizes session := by
  obtain ⟨before, after, split, ended⟩ := calls_split found database
  simp [SessionWorld.openSizes, split, ended, other]

end Calls

theorem countPart_eq_error {database : Database} {session : Uuid} {sizeBytes : Nat}
    {error : SessionError} (failed : countPart session sizeBytes database = .error error) :
    ∃ row ∈ database.sessions.rows, row.pk = session ∧ ¬ row.countFits sizeBytes := by
  by_contra fits
  simp only [not_exists, not_and, not_not] at fits
  rw [countPart_eq_ok_iff.mpr ⟨fits, rfl⟩] at failed
  cases failed

namespace CountersExact

variable {world next : SessionWorld} {session : Uuid}

/-- Sessions, parts and open calls are all that the counters are compared with. -/
theorem congr {other : SessionWorld} (exact : CountersExact session world)
    (sessions : other.database.sessions.rows = world.database.sessions.rows)
    (parts : other.database.partSizes session = world.database.partSizes session)
    (calls : other.openSizes session = world.openSizes session) :
    CountersExact session other := by
  unfold CountersExact
  rw [sessions, parts, calls]
  exact exact

theorem of_insert {now : Time} {target : Uuid} {arguments : PartArguments} {grown : Database}
    (exact : CountersExact session world)
    (inserted : insertPart now target arguments world.database = .ok grown) :
    CountersExact session ⟨grown, world.calls ++ [some ⟨target, arguments.sizeBytes⟩]⟩ := by
  obtain ⟨_, stored⟩ := insertPart_eq_ok_iff.mp inserted
  obtain ⟨_, _, _, _, sessions, parts, _⟩ := Database.insertPart?_eq_some stored
  by_cases same : target = session
  · intro row member key
    have sizes : grown.partSizes session =
        world.database.partSizes session ++ [arguments.sizeBytes] := partSizes_append parts same
    rw [openSizes_open same, sizes]
    exact (exact row (sessions ▸ member) key).add_open
  · refine exact.congr (congrArg Table.rows sessions) ?_ ?_
    · exact partSizes_append_other parts same
    · exact openSizes_open_other same

theorem of_count {call : Nat} {record : OpenCall} {counted : Database}
    (exact : CountersExact session world)
    (found : world.calls[call]? = some (some record))
    (result : countPart record.session record.sizeBytes world.database = .ok counted) :
    CountersExact session (world.endCall call counted) := by
  obtain ⟨_, rfl⟩ := countPart_eq_ok_iff.mp result
  intro row member key
  simp only [SessionWorld.endCall, sessions_writeCount, List.mem_map] at member
  obtain ⟨old, oldMember, rfl⟩ := member
  have oldKey : old.pk = session := by simpa [apply_ite UploadSession.pk] using key
  have tallies := exact old oldMember oldKey
  by_cases same : record.session = session
  · rw [if_pos (oldKey.trans same.symm)]
    exact tallies.close (openSizes_endCall found same _)
  · rw [if_neg (fun equal => same (equal.symm.trans oldKey)), openSizes_endCall_other found same]
    exact tallies

theorem of_complete {now : Time} {target file : Uuid} (exact : CountersExact session world) :
    CountersExact session
      { world with database := world.database.writeCompletion now target file } := by
  intro row member key
  simp only [sessions_writeCompletion, List.mem_map] at member
  obtain ⟨old, oldMember, rfl⟩ := member
  have oldKey : old.pk = session := by simpa [apply_ite UploadSession.pk] using key
  have tallies := exact old oldMember oldKey
  split
  · exact ⟨tallies.count, tallies.bytes⟩
  · exact tallies

/-- A step keeps the counters exact if and only if it is no update of the session that
finds its columns full. -/
theorem iff_countersFit {action : SessionAction} (exact : CountersExact session world)
    (stepped : chunkedUploads.step world action = some next) :
    CountersExact session next ↔ CountersFit session world action := by
  cases SessionStep.of_step stepped with
  | inserted inserted => exact ⟨fun _ => trivial, fun _ => exact.of_insert inserted⟩
  | rejected _ => exact ⟨fun _ => trivial, fun _ => exact.congr rfl rfl openSizes_rejected⟩
  | counted found result =>
      refine ⟨fun _ => ?_, fun _ => exact.of_count found result⟩
      intro sizeBytes same row member key
      obtain rfl := Option.some.inj (Option.some.inj (found.symm.trans same))
      exact (countPart_eq_ok_iff.mp result).1 row member key
  | @uncounted call record error found failed =>
      obtain ⟨row, member, key, full⟩ := countPart_eq_error failed
      by_cases same : record.session = session
      · constructor
        · intro dropped
          have tallies := exact row member (key.trans same)
          have closed := openSizes_endCall found same world.database
          exact absurd (dropped row member (key.trans same)) (tallies.not_dropped closed)
        · intro fit
          subst same
          exact absurd (fit record.sizeBytes found row member key) full
      · constructor
        · intro _ sizeBytes other
          obtain rfl := Option.some.inj (Option.some.inj (found.symm.trans other))
          exact absurd rfl same
        · intro _
          exact exact.congr rfl rfl (openSizes_endCall_other found same world.database)
  | completed result =>
      obtain ⟨_, _, _, rfl⟩ := completeUploadSession_eq_ok_iff.mp result
      exact ⟨fun _ => trivial, fun _ => exact.of_complete⟩
  | incomplete _ => exact ⟨fun _ => trivial, fun _ => exact⟩

theorem of_creation {created database : Database} {now : Time} {file : Uuid}
    {totalSizeBytes : Nat} {chunkSizeBytes : Option Nat}
    (made : createUploadSession now session file totalSizeBytes chunkSizeBytes database =
      .ok created) : CountersExact session (.init created) := by
  obtain ⟨_, _, inserted⟩ := createUploadSession_eq_ok_iff.mp made
  obtain ⟨fresh, _, _, _, sessions, parts, _⟩ := Database.insertSession?_eq_some inserted
  have absent : session ∉ database.sessions.keys := fresh
  intro row member key
  simp only [SessionWorld.init, sessions, List.mem_append, List.mem_singleton] at member
  have new := member.resolve_left fun old => absent (key ▸ Table.mem_keys_of_mem old)
  -- A part that was there before belongs to a session that was there before.
  have none : created.partSizes session = [] := by
    rw [Database.partSizes, List.map_eq_nil_iff, Database.partsOf, parts, List.filter_eq_nil_iff]
    intro part stored
    simp only [decide_eq_true_eq]
    intro same
    exact absent (same ▸ database.partSession part stored)
  subst new
  change (newSession ..).Tallies [] (created.partSizes session)
  rw [none]
  exact ⟨rfl, rfl⟩

end CountersExact

/-- The counters are exact, and so they are the truth while no call is open. -/
structure ProgressKept (session : Uuid) (world : SessionWorld) : Prop where
  exact : CountersExact session world
  atRest : world.openSizes session = [] →
    ∀ row ∈ world.database.sessions.rows, row.pk = session →
      row.completedParts = (world.database.partsOf session).length ∧
        row.bytesReceived = ((world.database.partsOf session).map (·.sizeBytes)).sum

theorem CountersExact.progressKept {session : Uuid} {world : SessionWorld}
    (exact : CountersExact session world) : ProgressKept session world := by
  refine ⟨exact, ?_⟩
  intro none row member key
  have tallies := exact row member key
  rw [none] at tallies
  obtain ⟨count, bytes⟩ := tallies.of_none_open
  exact ⟨count.trans (List.length_map _), bytes⟩

/-- From any database in which the counters of a session are exact, and in every
interleaving of any calls: no update is lost in any state if and only if every counter
update of the session finds room for its sums. -/
theorem counters_lose_no_update_iff {database : Database} {session : Uuid}
    (exact : CountersExact session (.init database)) (actions : List SessionAction) :
    chunkedUploads.Always (ProgressKept session) (.init database) actions ↔
      chunkedUploads.Meets (CountersFit session) (.init database) actions := by
  have step : ∀ world action next, CountersExact session world →
      CountersFit session world action → chunkedUploads.step world action = some next →
      CountersExact session next :=
    fun _ _ _ before fit stepped => (CountersExact.iff_countersFit before stepped).mpr fit
  constructor
  · intro always
    refine Machine.meets_of_always (CountersExact session) ?_ step exact always
    intro world action next before stepped kept
    exact (CountersExact.iff_countersFit before stepped).mp kept.exact
  · intro meets
    exact Machine.always_of_meets (CountersExact session) (fun _ => CountersExact.progressKept)
      step exact meets

/-- Two calls for the same part, the second of which is rejected while the first is open. -/
theorem counters_lose_no_update_duplicate :
    chunkedUploads.Always (ProgressKept Sample.session.pk) (.init Sample.uploadStarted)
      [.insertPart 0 Sample.session.pk (Sample.part 1),
        .insertPart 0 Sample.session.pk (Sample.part 1), .countPart 0] := by
  refine (counters_lose_no_update_iff ?_ _).mpr ?_
  · intro row member _
    obtain rfl := List.mem_singleton.mp member
    exact ⟨rfl, rfl⟩
  · refine .cons trivial rfl (.cons trivial rfl (.cons ?_ rfl trivial))
    intro sizeBytes found row member _
    obtain rfl := List.mem_singleton.mp member
    cases found
    decide

/-- The largest part that the columns admit, and then one of a single byte: the sum fits
no longer, the call raises, and the part of one byte is stored and not counted. -/
theorem counters_lose_update :
    ¬ ∀ (database : Database) (session : Uuid), CountersExact session (.init database) →
      ∀ actions : List SessionAction,
        chunkedUploads.Always (ProgressKept session) (.init database) actions := by
  intro kept
  let actions : List SessionAction :=
    [.insertPart 0 Sample.session.pk ⟨1, 0, positiveBigIntegerMax, ""⟩, .countPart 0,
      .insertPart 0 Sample.session.pk ⟨2, 0, 1, ""⟩, .countPart 1]
  have exact : CountersExact Sample.session.pk (.init Sample.uploadStarted) := by
    intro row member _
    obtain rfl := List.mem_singleton.mp member
    exact ⟨rfl, rfl⟩
  have final := kept _ _ exact actions actions [] (Sample.after actions) (by simp) rfl
  have counts := final.exact _ List.mem_cons_self rfl
  cases counts.count

end Doorito.Portal
