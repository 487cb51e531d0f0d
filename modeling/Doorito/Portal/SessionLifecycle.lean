import Doorito.Portal.SessionWorld

/-! When a session only moves forward. Neither the counter update nor the completion looks
at the status that it overwrites: a part that arrives late takes a COMPLETE session back,
and both bring a FAILED or ABORTED session to life again. Nothing else moves a session
backward. -/

set_option autoImplicit false

namespace Doorito.Portal

open Foundation Common

/-- The order INIT, IN_PROGRESS, COMPLETE; a session that FAILED or was ABORTED stays. -/
inductive UploadSession.Status.Forward :
    UploadSession.Status → UploadSession.Status → Prop where
  | same {status : UploadSession.Status} : Forward status status
  | begin : Forward .init .inProgress
  | finish : Forward .inProgress .complete
  | skip : Forward .init .complete

theorem UploadSession.Status.Forward.trans {first second third : UploadSession.Status}
    (one : first.Forward second) (two : second.Forward third) : first.Forward third := by
  cases one with
  | same => exact two
  | begin =>
      cases two with
      | same => exact .begin
      | finish => exact .skip
  | finish =>
      cases two with
      | same => exact .finish
  | skip =>
      cases two with
      | same => exact .skip

theorem UploadSession.Status.forward_inProgress {status : UploadSession.Status} :
    status.Forward .inProgress ↔ status = .init ∨ status = .inProgress := by
  constructor
  · intro forward
    cases forward with
    | same => exact .inr rfl
    | begin => exact .inl rfl
  · intro opened
    rcases opened with rfl | rfl
    · exact .begin
    · exact .same

theorem UploadSession.Status.forward_complete {status : UploadSession.Status} :
    status.Forward .complete ↔ status ≠ .failed ∧ status ≠ .aborted := by
  constructor
  · intro forward
    cases forward <;> decide
  · intro alive
    cases status with
    | init => exact .skip
    | inProgress => exact .finish
    | complete => exact .same
    | failed => exact absurd rfl alive.1
    | aborted => exact absurd rfl alive.2

/-- Every session is still there, and its status has only moved forward. -/
def MovesForward (earlier later : SessionWorld) : Prop :=
  ∀ row ∈ earlier.database.sessions.rows, ∃ kept ∈ later.database.sessions.rows,
    kept.pk = row.pk ∧ row.status.Forward kept.status

/-- A counter update that goes through finds its session INIT or IN_PROGRESS, and a
completion that goes through finds its session neither FAILED nor ABORTED. -/
def FindsSessionOpen (world : SessionWorld) : SessionAction → Prop
  | .insertPart .. => True
  | .countPart call =>
      ∀ record, world.calls[call]? = some (some record) →
        ∀ row ∈ world.database.sessions.rows, row.pk = record.session →
          row.countFits record.sizeBytes → row.status = .init ∨ row.status = .inProgress
  | .complete _ session =>
      ∀ row ∈ world.database.sessions.rows, row.pk = session →
        row.totalParts ≤ world.database.receivedCount session →
          row.status ≠ .failed ∧ row.status ≠ .aborted

namespace MovesForward

theorem refl (world : SessionWorld) : MovesForward world world :=
  fun row member => ⟨row, member, rfl, .same⟩

theorem trans {first second third : SessionWorld} (one : MovesForward first second)
    (two : MovesForward second third) : MovesForward first third := by
  intro row member
  obtain ⟨middle, middleMember, middleKey, firstMove⟩ := one row member
  obtain ⟨kept, keptMember, keptKey, secondMove⟩ := two middle middleMember
  exact ⟨kept, keptMember, keptKey.trans middleKey, firstMove.trans secondMove⟩

/-- A change of one session row moves it forward exactly if it does so for the row. -/
theorem iff_of_update {world next : SessionWorld} {session : Uuid}
    {change : UploadSession → UploadSession} (keeps : ∀ row, (change row).pk = row.pk)
    (rows : next.database.sessions.rows = world.database.sessions.rows.map fun row =>
      if row.pk = session then change row else row) :
    MovesForward world next ↔
      ∀ row ∈ world.database.sessions.rows, row.pk = session →
        row.status.Forward (change row).status := by
  have changed : ∀ row ∈ world.database.sessions.rows,
      (if row.pk = session then change row else row) ∈ next.database.sessions.rows := by
    intro row member
    rw [rows]
    exact List.mem_map_of_mem member
  constructor
  · intro forward row member key
    obtain ⟨kept, keptMember, keptKey, move⟩ := forward row member
    have image := changed row member
    rw [if_pos key] at image
    have same : kept = change row :=
      Table.eq_of_key_eq keptMember image (keptKey.trans (keeps row).symm)
    rw [← same]
    exact move
  · intro forward row member
    refine ⟨_, changed row member, ?_⟩
    by_cases key : row.pk = session
    · rw [if_pos key]
      exact ⟨keeps row, forward row member key⟩
    · rw [if_neg key]
      exact ⟨rfl, .same⟩

theorem iff_findsSessionOpen {world next : SessionWorld} {action : SessionAction}
    (stepped : chunkedUploads.step world action = some next) :
    MovesForward world next ↔ FindsSessionOpen world action := by
  cases SessionStep.of_step stepped with
  | inserted inserted =>
      obtain ⟨_, grown⟩ := insertPart_eq_ok_iff.mp inserted
      obtain ⟨_, _, _, _, sessions, _⟩ := Database.insertPart?_eq_some grown
      refine ⟨fun _ => trivial, fun _ => ?_⟩
      intro row member
      exact ⟨row, sessions ▸ member, rfl, .same⟩
  | rejected _ => exact ⟨fun _ => trivial, fun _ => refl _⟩
  | @counted call record counted found result =>
      obtain ⟨fits, rfl⟩ := countPart_eq_ok_iff.mp result
      rw [iff_of_update (UploadSession.pk_counted record.sizeBytes) sessions_writeCount]
      constructor
      · intro forward other foundOther row member key _
        obtain rfl : record = other := by simpa [found] using foundOther
        exact UploadSession.Status.forward_inProgress.mp (forward row member key)
      · intro opened row member key
        exact UploadSession.Status.forward_inProgress.mpr
          (opened record found row member key (fits row member key))
  | @uncounted call record error found failed =>
      refine ⟨?_, fun _ => refl _⟩
      intro _ other foundOther row member key fits
      obtain rfl : record = other := by simpa [found] using foundOther
      rw [countPart_of_fits member key fits] at failed
      cases failed
  | @completed now session completed result =>
      obtain ⟨stored, found, enough, rfl⟩ := completeUploadSession_eq_ok_iff.mp result
      obtain ⟨storedMember, storedKey⟩ := Table.get?_eq_some_iff.mp found
      rw [iff_of_update (UploadSession.pk_completed now) sessions_writeCompletion]
      constructor
      · intro forward row member key _
        exact UploadSession.Status.forward_complete.mp (forward row member key)
      · intro alive row member key
        have same : row = stored :=
          Table.eq_of_key_eq member storedMember (key.trans storedKey.symm)
        exact UploadSession.Status.forward_complete.mpr
          (alive row member key (same ▸ enough))
  | @incomplete now session error failed =>
      refine ⟨?_, fun _ => refl _⟩
      intro _ row member key enough
      rw [completeUploadSession_of_enough member key enough] at failed
      cases failed

end MovesForward

/-- In every interleaving of any calls, from any database, the sessions only move forward
if and only if every statement that writes a status finds its session open. -/
theorem sessions_move_forward_iff (database : Database) (actions : List SessionAction) :
    chunkedUploads.Along MovesForward (.init database) actions ↔
      chunkedUploads.Meets FindsSessionOpen (.init database) actions := by
  constructor
  · intro along
    exact Machine.meets_of_along
      (fun _ _ _ stepped => (MovesForward.iff_findsSessionOpen stepped).mp) along
  · intro meets
    have along := Machine.along_of_meets (fun _ => True) MovesForward MovesForward.refl
      MovesForward.trans
      (fun _ _ _ _ opened stepped =>
        ⟨trivial, (MovesForward.iff_findsSessionOpen stepped).mpr opened⟩)
      trivial meets
    exact along.mono fun _ _ => And.right

/-- The only part is recorded and the session completed; a second part then takes the
session back to IN_PROGRESS. -/
theorem completed_session_moves_back :
    ¬ ∀ (database : Database) (actions : List SessionAction),
      chunkedUploads.Along MovesForward (.init database) actions := by
  intro forward
  let upload := Sample.recordPart 0 1 ++ [.complete 0 Sample.session.pk]
  let late := Sample.recordPart 1 2
  have moved := forward Sample.uploadStarted (upload ++ late) upload late []
    (Sample.after upload) (Sample.after (upload ++ late)) rfl rfl rfl
  obtain ⟨kept, member, _, move⟩ := moved _ List.mem_cons_self
  obtain rfl := List.mem_singleton.mp member
  cases move

end Doorito.Portal
