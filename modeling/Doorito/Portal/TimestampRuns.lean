import Doorito.Portal.SessionWorld
import Doorito.Portal.Timestamps

/-! `updated_at` over sequences of operations. Each operation that stamps what it changes
keeps the column true for all changes before it; the three that forget the column make it
false at once. -/

set_option autoImplicit false

namespace Doorito.Portal

open Foundation Common

section Step

variable {world next : Clocked UploadState Time} {operation : WritingOperation}

theorem writers_step_eq_some_iff :
    writers.step world operation = some next ↔
      world.clock < operation.begins ∧ operation.begins ≤ operation.time ∧
        next = ⟨operation.perform world.state, operation.time⟩ := by
  simp only [writers, Option.ite_none_right_eq_some, Option.some.injEq, and_assoc]
  exact and_congr_right fun _ => and_congr_right fun _ => eq_comm

/-- One case for each operation; three of them need their condition. -/
theorem perform_stampedAt (refreshes : Refreshes world operation) :
    world.state.database.StampedAt operation.time (operation.perform world.state).database := by
  cases operation with
  | emitEvent now pk arguments =>
      simp only [WritingOperation.perform]
      split
      · next emitted => exact .withEvents (emitEvent_stampedAt emitted)
      · exact .refl _
  | processPendingEvents input => exact .withEvents (processPendingEvents_stampedAt input _)
  | retryFailedEvents now selected => exact .withEvents (retryFailedEvents_stampedAt refreshes)
  | createUploadFile settings input user file batch =>
      exact createUploadFile_stampedAt settings input user file batch world.state
  | markFileFailed now file error =>
      simp only [WritingOperation.perform]
      split
      · next marked => exact markFileFailed_stampedAt marked
      · exact .refl _
  | finalizeBatch now batch =>
      simp only [WritingOperation.perform]
      split
      · next finalized => exact finalizeBatch_stampedAt finalized
      · exact .refl _
  | createUploadSession now pk file totalSizeBytes chunkSizeBytes =>
      simp only [WritingOperation.perform]
      split
      · next created => exact createUploadSession_stampedAt created
      · exact .refl _
  | recordUploadPart now session arguments => exact recordUploadPart_stampedAt refreshes
  | completeUploadSession now session =>
      simp only [WritingOperation.perform]
      split
      · next completed => exact completeUploadSession_stampedAt refreshes completed
      · exact .refl _

/-- No operation writes a stamp other than its own time. -/
theorem perform_keepsStamps (operation : WritingOperation) :
    world.state.database.KeepsStamps operation.time
      (operation.perform world.state).database := by
  by_cases refreshes : Refreshes world operation
  · exact (perform_stampedAt refreshes).keepsStamps
  · cases operation with
    | retryFailedEvents now selected =>
        have same : Database.KeepsStamps now world.state.database world.state.database :=
          (Database.StampedAt.refl _).keepsStamps
        exact ⟨same.batches, same.files, same.sessions, same.parts,
          Table.keepsStamps_updateWhere (OutboxEvent.pk_reset now) fun _ => rfl⟩
    | recordUploadPart now session arguments => exact recordUploadPart_keepsStamps
    | completeUploadSession now session =>
        simp only [WritingOperation.perform]
        split
        · next completed => exact completeUploadSession_keepsStamps completed
        · exact (Database.StampedAt.refl _).keepsStamps
    | _ => exact absurd trivial refreshes

theorem stampedBy_step (bounded : world.state.database.StampedBy world.clock)
    (stepped : writers.step world operation = some next) :
    next.state.database.StampedBy next.clock := by
  obtain ⟨later, ordered, rfl⟩ := writers_step_eq_some_iff.mp stepped
  exact (perform_keepsStamps operation).stampedBy bounded (later.le.trans ordered)

end Step

/-! ## The three operations that forget -/

section Forgotten

variable {database : Database} {clock : Time} (now : Time)

theorem not_datesChanges_of_resets (bounded : database.StampedBy clock) (later : clock < now)
    {selected : List Uuid} (resets : ResetsEvent database selected) :
    ¬ database.DatesChanges now
        { database with events := retryFailedEvents now selected database.events }
        { database with events := retryFailedEvents now selected database.events } := by
  obtain ⟨event, member, failed, chosen⟩ := resets
  have written : event.reset now ∈ (retryFailedEvents now selected database.events).rows :=
    Table.mem_updateWhere.mpr ⟨event, member, if_pos (decide_eq_true ⟨failed, chosen⟩)⟩
  intro dates
  refine Table.not_datesChanges member written rfl ?_ rfl
    ((bounded.events event member).trans_lt later) dates.events
  intro same
  have pending := congrArg OutboxEvent.status same
  rw [failed] at pending
  cases pending

theorem not_datesChanges_of_recordsPart (bounded : database.StampedBy clock)
    (later : clock < now) {session : Uuid} {arguments : PartArguments}
    (records : RecordsPart database session arguments) :
    ¬ database.DatesChanges now (recordUploadPart now session arguments database).1
        (recordUploadPart now session arguments database).1 := by
  obtain ⟨inserted, ran, counted⟩ := recordUploadPart_of_recordsPart now records
  obtain ⟨_, stored⟩ := insertPart_eq_ok_iff.mp ran
  obtain ⟨_, _, _, _, sessions, _⟩ := Database.insertPart?_eq_some stored
  obtain ⟨_, _, row, member, key, _⟩ := records
  have written : row.counted arguments.sizeBytes ∈
      (inserted.writeCount session arguments.sizeBytes).sessions.rows := by
    rw [sessions_writeCount, sessions, List.mem_map]
    exact ⟨row, member, if_pos key⟩
  rw [counted]
  intro dates
  refine Table.not_datesChanges member written rfl ?_ rfl
    ((bounded.sessions row member).trans_lt later) dates.sessions
  exact fun same => absurd (congrArg UploadSession.completedParts same) (Nat.succ_ne_self _)

theorem not_datesChanges_of_stores (bounded : database.StampedBy clock) (later : clock < now)
    {session : Uuid} (stores : StoresFile database session) :
    ∃ left, completeUploadSession now session database = .ok left ∧
      ¬ database.DatesChanges now left left := by
  obtain ⟨row, member, key, enough, upload, uploadMember, fileKey, uploading⟩ := stores
  refine ⟨_, completeUploadSession_of_enough member key enough, ?_⟩
  have written : upload.store ∈ (database.writeCompletion now session row.file).files.rows := by
    rw [files_writeCompletion, List.mem_map]
    exact ⟨upload, uploadMember, if_pos ⟨fileKey, uploading⟩⟩
  intro dates
  refine Table.not_datesChanges uploadMember written rfl ?_ rfl
    ((bounded.files upload uploadMember).trans_lt later) dates.files
  intro same
  have status := congrArg UploadFile.status same
  rw [uploading] at status
  cases status

end Forgotten

theorem refreshes_of_datesChanges {world next : Clocked UploadState Time}
    {operation : WritingOperation} (bounded : world.state.database.StampedBy world.clock)
    (stepped : writers.step world operation = some next)
    (dates : world.state.database.DatesChanges operation.time next.state.database
      next.state.database) : Refreshes world operation := by
  obtain ⟨later, ordered, rfl⟩ := writers_step_eq_some_iff.mp stepped
  have early := later.trans_le ordered
  cases operation with
  | retryFailedEvents now selected =>
      exact fun resets => not_datesChanges_of_resets now bounded early resets dates
  | recordUploadPart now session arguments =>
      exact fun records => not_datesChanges_of_recordsPart now bounded early records dates
  | completeUploadSession now session =>
      intro stores
      obtain ⟨left, completed, broken⟩ := not_datesChanges_of_stores now bounded early stores
      simp only [WritingOperation.perform, WritingOperation.time, completed] at dates
      exact broken dates
  | _ => trivial

/-- What an operation changed is dated in every state from there on. -/
def KeepsDates (earlier : Clocked UploadState Time) (operation : WritingOperation)
    (next later : Clocked UploadState Time) : Prop :=
  earlier.state.database.DatesChanges operation.time next.state.database later.state.database

/-- For every sequence of operations at strictly increasing times: `updated_at` of a row is in
every state not earlier than any operation that has changed the row, if and only if no recorded
part is counted, no completion stores an UPLOADING file and no FAILED event is reset. -/
theorem updated_at_dates_changes_iff {start : Clocked UploadState Time}
    (bounded : start.state.database.StampedBy start.clock)
    (operations : List WritingOperation) :
    writers.AfterEach KeepsDates start operations ↔ writers.Meets Refreshes start operations := by
  constructor
  · intro dated
    exact Machine.meets_of_afterEach
      (fun world : Clocked UploadState Time => world.state.database.StampedBy world.clock)
      stampedBy_step refreshes_of_datesChanges bounded dated
  · intro meets
    have along : writers.AfterEach (fun earlier operation next later =>
        operation.time ≤ later.clock ∧ KeepsDates earlier operation next later)
        start operations := by
      refine Machine.afterEach_of_meets ?_ ?_ meets
      · intro world operation next refreshes stepped
        obtain ⟨_, _, rfl⟩ := writers_step_eq_some_iff.mp stepped
        exact ⟨le_rfl, (perform_stampedAt refreshes).datesChanges⟩
      · intro earlier operation next later other final held refreshes stepped
        obtain ⟨reached, dates⟩ := held
        obtain ⟨after, ordered, rfl⟩ := writers_step_eq_some_iff.mp stepped
        have passed := reached.trans (after.le.trans ordered)
        exact ⟨passed, dates.step (perform_stampedAt refreshes) passed⟩
    intro before operation between after earlier next later split ran stepped reached
    exact (along before operation between after earlier next later split ran stepped reached).2

/-! ## A session that was created at time 0 -/

namespace Sample

def atRest : Clocked UploadState Time := ⟨⟨uploadStarted, .empty⟩, 0⟩

theorem atRest_stamped : atRest.state.database.StampedBy atRest.clock := by
  refine ⟨List.forall_mem_nil _, ?_, ?_, List.forall_mem_nil _, List.forall_mem_nil _⟩
  · exact List.forall_mem_singleton.mpr le_rfl
  · exact List.forall_mem_singleton.mpr le_rfl

end Sample

/-- A file fails, and an event is emitted. -/
theorem updated_at_dates_changes_failure :
    writers.AfterEach KeepsDates Sample.atRest
      [.markFileFailed 1 Sample.file.pk "connection lost",
        .emitEvent 2 (Sample.uuid 7) Common.Sample.arguments] :=
  (updated_at_dates_changes_iff Sample.atRest_stamped _).mpr
    fun _ _ => ⟨trivial, fun _ _ => ⟨trivial, trivial⟩⟩

/-- A part is recorded at time 1, and the session that counts it keeps its time 0. -/
theorem updated_at_keeps_old_time :
    ¬ ∀ (start : Clocked UploadState Time), start.state.database.StampedBy start.clock →
      ∀ operations : List WritingOperation, writers.AfterEach KeepsDates start operations := by
  intro dated
  have dates := dated Sample.atRest Sample.atRest_stamped
    [.recordUploadPart 1 Sample.session.pk (Sample.part 1)] [] _ [] [] _ _ _ rfl rfl rfl rfl
  refine not_datesChanges_of_recordsPart 1 Sample.atRest_stamped (by decide) ?_ dates
  exact ⟨by decide, List.not_mem_nil, Sample.session, List.mem_singleton_self _, rfl, by decide⟩

end Doorito.Portal
