import Doorito.Portal.Completion
import Doorito.Portal.ProgressCounters

/-! What a failed call of `record_upload_part` leaves behind. Either of its two statements
may fail; nothing takes the first one back when the second one does. -/

set_option autoImplicit false

namespace Doorito.Portal

open Foundation Common

inductive PartStatement where
  | insert
  | count
deriving DecidableEq, Repr

/-- Which statements of a call fail for reasons that lie outside of it. -/
abbrev PartFaults := PartStatement → Option DbError

/-- `record_upload_part` with a database that may fail each of the statements. -/
def recordUploadPartUnder (faults : PartFaults) (now : Time) (session : Uuid)
    (arguments : PartArguments) (database : Database) :
    Database × Except SessionError UploadPart :=
  match faults .insert with
  | some error => (database, .error (.database error))
  | none =>
      match insertPart now session arguments database with
      | .error error => (database, .error error)
      | .ok inserted =>
          match faults .count with
          | some error => (inserted, .error (.database error))
          | none =>
              match countPart session arguments.sizeBytes inserted with
              | .error error => (inserted, .error error)
              | .ok counted => (counted, .ok (arguments.part now session))

/-- The counters of a session are the number and the total size of its RECEIVED parts. -/
def Database.CountsReceived (database : Database) (session : Uuid) : Prop :=
  ∀ row ∈ database.sessions.rows, row.pk = session →
    row.completedParts = (database.receivedParts session).length ∧
      row.bytesReceived = ((database.receivedParts session).map (·.sizeBytes)).sum

/-- If the call raises, the session and its parts are as before, a retry does what the call
would have done then, and a retry that succeeds leaves the counters right. -/
structure AtomicOnFailure (faults : PartFaults) (now : Time) (session : Uuid)
    (arguments : PartArguments) (database : Database) : Prop where
  unchanged : ∀ left error,
    recordUploadPartUnder faults now session arguments database = (left, .error error) →
      left.sessions = database.sessions ∧ left.partsOf session = database.partsOf session
  retries : ∀ left error,
    recordUploadPartUnder faults now session arguments database = (left, .error error) →
      ∀ later, (recordUploadPart later session arguments left).2 =
        (recordUploadPart later session arguments database).2
  counts : ∀ left error,
    recordUploadPartUnder faults now session arguments database = (left, .error error) →
      database.CountsReceived session → ∀ later counted part,
        recordUploadPart later session arguments left = (counted, .ok part) →
          counted.CountsReceived session

/-- The insert does not go through: the database fails it, a value does not fit its column,
the number is taken, or the session is gone. -/
def InsertFails (faults : PartFaults) (session : Uuid) (arguments : PartArguments)
    (database : Database) : Prop :=
  faults .insert ≠ none ∨ ¬ arguments.fitsColumns ∨
    (session, arguments.partNumber) ∈ database.parts.keys ∨
      session ∉ database.sessions.keys

/-- The database does not fail the update, and both sums fit their columns. -/
def UpdateFits (faults : PartFaults) (session : Uuid) (arguments : PartArguments)
    (database : Database) : Prop :=
  faults .count = none ∧
    ∀ row ∈ database.sessions.rows, row.pk = session → row.countFits arguments.sizeBytes

section Outcomes

variable {faults : PartFaults} {now : Time} {session : Uuid} {arguments : PartArguments}
  {database : Database}

theorem recordUploadPartUnder_none :
    recordUploadPartUnder (fun _ => none) now session arguments database =
      recordUploadPart now session arguments database := rfl

theorem insertPart_error_iff (now : Time) :
    (∃ error, insertPart now session arguments database = .error error) ↔
      ¬ arguments.fitsColumns ∨ (session, arguments.partNumber) ∈ database.parts.keys ∨
        session ∉ database.sessions.keys := by
  constructor
  · intro rejected
    obtain ⟨error, failed⟩ := rejected
    by_contra admitted
    simp only [not_or, not_not] at admitted
    obtain ⟨fits, fresh, known⟩ := admitted
    obtain ⟨grown, inserted⟩ := insertPart_of_fresh now fits fresh known
    rw [inserted] at failed
    cases failed
  · intro reasons
    cases inserted : insertPart now session arguments database with
    | error error => exact ⟨error, rfl⟩
    | ok grown =>
        obtain ⟨fits, stored⟩ := insertPart_eq_ok_iff.mp inserted
        obtain ⟨fresh, known, _⟩ := Database.insertPart?_eq_some stored
        rcases reasons with misfit | taken | gone
        · exact absurd fits misfit
        · exact absurd taken fresh
        · exact absurd known gone

theorem recordUploadPartUnder_of_insertFails (now : Time)
    (fails : InsertFails faults session arguments database) :
    (recordUploadPartUnder faults now session arguments database).1 = database := by
  unfold recordUploadPartUnder
  cases fault : faults .insert with
  | some error => rfl
  | none =>
      have rejected := fails.resolve_left (absurd fault)
      obtain ⟨error, failed⟩ := (insertPart_error_iff now).mpr rejected
      simp only [failed]

theorem recordUploadPartUnder_of_updateFits
    (fits : UpdateFits faults session arguments database) {left : Database}
    {error : SessionError}
    (failed : recordUploadPartUnder faults now session arguments database =
      (left, .error error)) : left = database := by
  unfold recordUploadPartUnder at failed
  split at failed
  · cases failed
    rfl
  · split at failed
    · cases failed
      rfl
    · next grown inserted =>
      rw [fits.1] at failed
      obtain ⟨_, stored⟩ := insertPart_eq_ok_iff.mp inserted
      obtain ⟨_, _, _, _, sessions, _, _⟩ := Database.insertPart?_eq_some stored
      have counted := countPart_eq_ok_iff.mpr ⟨sessions ▸ fits.2, rfl⟩
      simp only [counted] at failed
      cases failed

/-- The insert goes through and the update does not: the part stays. -/
theorem recordUploadPartUnder_leaves_part (now : Time)
    (inserts : ¬ InsertFails faults session arguments database)
    (fails : ¬ UpdateFits faults session arguments database) :
    ∃ left error, recordUploadPartUnder faults now session arguments database =
        (left, .error error) ∧
      left.partsOf session = database.partsOf session ++ [arguments.part now session] := by
  simp only [InsertFails, not_or, not_not] at inserts
  obtain ⟨noFault, fits, fresh, known⟩ := inserts
  obtain ⟨grown, inserted⟩ := insertPart_of_fresh now fits fresh known
  obtain ⟨_, stored⟩ := insertPart_eq_ok_iff.mp inserted
  obtain ⟨_, _, _, _, sessions, parts, _⟩ := Database.insertPart?_eq_some stored
  have appended := Database.partsOf_append parts rfl
  unfold recordUploadPartUnder
  simp only [noFault, inserted]
  cases fault : faults .count with
  | some error => exact ⟨grown, _, rfl, appended⟩
  | none =>
      cases counted : countPart session arguments.sizeBytes grown with
      | error error => exact ⟨grown, error, rfl, appended⟩
      | ok result =>
          have rows := (countPart_eq_ok_iff.mp counted).1
          exact absurd ⟨fault, sessions ▸ rows⟩ fails

theorem receivedParts_append {grown : Database}
    (rows : grown.parts.rows = database.parts.rows ++ [arguments.part now session]) :
    grown.receivedParts session =
      database.receivedParts session ++ [arguments.part now session] := by
  have appended : grown.partsOf session =
      database.partsOf session ++ [arguments.part now session] := Database.partsOf_append rows rfl
  rw [Database.receivedParts, appended, List.filter_append]
  rfl

/-- A call that succeeds counts the part that it stores. -/
theorem countsReceived_of_recorded (counts : database.CountsReceived session)
    {recorded : Database} {part : UploadPart}
    (result : recordUploadPart now session arguments database = (recorded, .ok part)) :
    recorded.CountsReceived session := by
  unfold recordUploadPart at result
  split at result
  · cases result
  · next grown inserted =>
    split at result
    · cases result
    · next counted updated =>
      cases result
      obtain ⟨_, stored⟩ := insertPart_eq_ok_iff.mp inserted
      obtain ⟨_, _, _, _, sessions, parts, _⟩ := Database.insertPart?_eq_some stored
      obtain ⟨_, rfl⟩ := countPart_eq_ok_iff.mp updated
      intro row member key
      rw [sessions_writeCount, sessions] at member
      obtain ⟨old, oldMember, rfl⟩ := List.mem_map.mp member
      have oldKey : old.pk = session := by simpa [apply_ite UploadSession.pk] using key
      obtain ⟨count, bytes⟩ := counts old oldMember oldKey
      have received := receivedParts_append parts
      change _ = (grown.receivedParts session).length ∧
        _ = ((grown.receivedParts session).map (·.sizeBytes)).sum
      rw [if_pos oldKey, received]
      simp [UploadSession.counted, count, bytes, PartArguments.part]

theorem atomicOnFailure_of_unchanged
    (unchanged : ∀ left error,
      recordUploadPartUnder faults now session arguments database = (left, .error error) →
        left = database) :
    AtomicOnFailure faults now session arguments database := by
  constructor
  · intro left error failed
    rw [unchanged left error failed]
    exact ⟨rfl, rfl⟩
  · intro left error failed later
    rw [unchanged left error failed]
  · intro left error failed counts later counted part retried
    rw [unchanged left error failed] at retried
    exact countsReceived_of_recorded counts retried

end Outcomes

/-- A call that raises leaves session and parts as they were, whichever statement failed, if
and only if its insert does not go through or its update fits. -/
theorem record_upload_part_atomic_iff (faults : PartFaults) (now : Time) (session : Uuid)
    (arguments : PartArguments) (database : Database) :
    AtomicOnFailure faults now session arguments database ↔
      InsertFails faults session arguments database ∨
        UpdateFits faults session arguments database := by
  constructor
  · intro atomic
    by_contra neither
    obtain ⟨inserts, fails⟩ := not_or.mp neither
    obtain ⟨left, error, failed, stays⟩ :=
      recordUploadPartUnder_leaves_part now inserts fails
    have same := (atomic.unchanged left error failed).2
    rw [stays] at same
    exact absurd (congrArg List.length same) (by simp)
  · intro condition
    apply atomicOnFailure_of_unchanged
    intro left error failed
    rcases condition with rejected | fits
    · have kept := recordUploadPartUnder_of_insertFails now rejected
      rw [failed] at kept
      exact kept
    · exact recordUploadPartUnder_of_updateFits fits failed

/-- Without any fault of the database: the session has received one part of the largest size
that the column admits, and a second part of one byte is stored and never counted. -/
theorem record_upload_part_not_atomic :
    ¬ ∀ (faults : PartFaults) (now : Time) (session : Uuid) (arguments : PartArguments)
      (database : Database), arguments.fitsColumns →
      AtomicOnFailure faults now session arguments database := by
  intro atomic
  let full : Database := (recordUploadPart 0 Sample.session.pk
    ⟨1, 0, positiveBigIntegerMax, ""⟩ Sample.uploadStarted).1
  have kept := (atomic (fun _ => none) 0 Sample.session.pk ⟨2, 0, 1, ""⟩ full
    (by decide)).unchanged _ _ rfl
  exact absurd (congrArg List.length kept.2) (by decide)

end Doorito.Portal
