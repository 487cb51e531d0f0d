import Doorito.Portal.CompletionAtomicity
import Doorito.Portal.PlannedUploads

/-! Clients that keep to the plan, statement by statement. What a completion has counted is still
there when it commits, whatever the others do in between. -/

set_option autoImplicit false

namespace Doorito.Portal

open Foundation Common Machine

/-- The statements of `record_upload_part`. -/
def StatementAction.recording? : StatementAction → Option SessionAction
  | .insertPart now session arguments => some (.insertPart now session arguments)
  | .countPart call => some (.countPart call)
  | .markFileFailed _ _ _ | .deleteFiles _ | .refresh _ | .count _ | .save _ _ | .updateFile _
  | .commit _ | .rollback _ => none

/-- Every call on the session sends a chunk of the plan, and no cleanup takes the file. -/
def ChunkPlan.KeepsFile (plan : ChunkPlan) (session file : Uuid) : StatementAction → Prop
  | .insertPart _ target arguments => target = session → plan.Contains arguments
  | .deleteFiles pks => file ∉ pks
  | .countPart _ | .markFileFailed _ _ _ | .refresh _ | .count _ | .save _ _ | .updateFile _
  | .commit _ | .rollback _ => True

/-- What holds of the planned session is committed. -/
structure PlannedStatements (plan : ChunkPlan) (session file : Uuid)
    (past : List StatementAction) (world : StatementWorld) : Prop where
  planned : PlannedInvariant plan session (past.filterMap StatementAction.recording?)
    world.committed
  file : ∀ row ∈ world.committed.database.sessions.rows, row.pk = session → row.file = file

/-- A step that stores no part of the session and keeps its row. -/
theorem PlannedInvariant.of_frame {plan : ChunkPlan} {session : Uuid} {past : List SessionAction}
    {world next : SessionWorld} (invariant : PlannedInvariant plan session past world)
    (subset : ∀ row ∈ next.database.sessions.rows, row ∈ world.database.sessions.rows)
    (kept : ∀ row ∈ world.database.sessions.rows, row.pk = session →
      row ∈ next.database.sessions.rows)
    (parts : next.database.partsOf session = world.database.partsOf session)
    (calls : next.calls = world.calls) : PlannedInvariant plan session past next := by
  obtain ⟨row, member, key, total⟩ := invariant.row
  refine ⟨⟨row, kept row member key, key, total⟩, parts ▸ invariant.parts, ?_, ?_⟩
  · intro number
    rw [Database.number_mem_partsOf, parts, ← Database.number_mem_partsOf]
    exact invariant.sent number
  · intro other stored same
    have tallies := invariant.counters other (subset other stored) same
    rwa [SessionWorld.openSizes, calls, Database.partSizes, parts]

/-- Another past in which the same parts were sent. -/
theorem PlannedInvariant.of_sends {plan : ChunkPlan} {session : Uuid}
    {past other : List SessionAction} {world : SessionWorld}
    (invariant : PlannedInvariant plan session past world)
    (sends : ∀ number, (∃ action ∈ past, SendsPart session number action) ↔
      ∃ action ∈ other, SendsPart session number action) :
    PlannedInvariant plan session other world :=
  ⟨invariant.row, invariant.parts, fun number => (invariant.sent number).trans (sends number),
    invariant.counters⟩

namespace PlannedStatements

variable {plan : ChunkPlan} {session file : Uuid} {past : List StatementAction}
  {world next : StatementWorld} {action : StatementAction}

theorem file_of_step (stepped : statements.step world action = some next)
    (was : ∀ row ∈ world.committed.database.sessions.rows, row.pk = session → row.file = file) :
    ∀ row ∈ next.committed.database.sessions.rows, row.pk = session → row.file = file := by
  have follow : ∀ {touched deletes : Uuid → Prop},
      Database.Follows touched deletes world.committed.database next.committed.database →
        ∀ row ∈ next.committed.database.sessions.rows, row.pk = session → row.file = file := by
    intro touched deletes follows row member key
    obtain ⟨old, stored, pk, _, same⟩ := follows.sessions row member
    exact same.symm.trans (was old stored (pk.trans key))
  cases StatementStep.of_step stepped with
  | inserted moved =>
      cases SessionStep.of_step moved with
      | inserted inserted => exact follow (.of_insertPart inserted)
      | rejected _ => exact was
  | counted _ _ moved =>
      cases SessionStep.of_step moved with
      | counted _ counted => exact follow (.of_countPart counted)
      | uncounted _ _ => exact was
  | marked _ moved =>
      simp only [sessionCalls] at moved
      split at moved <;> cases moved
      · next marked => exact follow (.of_markFileFailed marked)
      · exact was
  | deleted _ => exact follow (.of_deleteFiles _ _)
  | committed _ => exact follow (.of_commitCompletion _ _ _ _ _)
  | refreshed _ | missing | enough _ _ | tooFew _ | saved _ _ _ | unsaved _ | updated _ _
  | rolledBack _ => exact was

theorem step (invariant : PlannedStatements plan session file past world)
    (statement : StatementInvariant world) (keeps : plan.KeepsFile session file action)
    (stepped : statements.step world action = some next) :
    PlannedStatements plan session file (past ++ [action]) next := by
  refine ⟨?_, file_of_step stepped invariant.file⟩
  have planned := invariant.planned
  have quiet : action.recording? = none → (past ++ [action]).filterMap StatementAction.recording? =
      past.filterMap StatementAction.recording? := by
    intro other
    rw [List.filterMap_append, List.filterMap_cons_none other, List.filterMap_nil, List.append_nil]
  cases StatementStep.of_step stepped with
  | inserted moved =>
      rw [List.filterMap_append]
      exact planned.of_step keeps moved
  | counted _ _ moved =>
      rw [List.filterMap_append]
      exact planned.of_step trivial moved
  | marked _ moved =>
      simp only [sessionCalls] at moved
      split at moved <;> cases moved
      · next marked =>
        unfold markFileFailed at marked
        split_ifs at marked
        cases marked
        rw [quiet rfl]
        exact planned.of_frame (fun _ member => member) (fun _ member _ => member) rfl rfl
      · rw [quiet rfl]
        exact planned
  | @deleted pks _ =>
      have gone := deleteFiles_withoutFiles world.committed.database pks
      have kept : ∀ row ∈ world.committed.database.sessions.rows, row.pk = session →
          row ∈ (world.committed.database.deleteFiles pks).sessions.rows := by
        intro row member key
        rw [gone.sessions]
        exact List.mem_filter.mpr ⟨member, decide_eq_true (invariant.file row member key ▸ keeps)⟩
      obtain ⟨row, member, key, _⟩ := planned.row
      rw [quiet rfl]
      refine planned.of_frame ?_ kept ?_ rfl
      · intro other stored
        rw [gone.sessions] at stored
        exact (List.mem_filter.mp stored).1
      · exact partsOf_deleteFiles (key ▸ Table.mem_keys_of_mem (kept row member key))
  | @committed completion now row stores found =>
      have completes := (statement.holds _ (List.mem_of_getElem? found)).completes
      have moved : chunkedUploads.step world.committed (.complete now row.pk) =
          some { world.committed with
            database := world.committed.database.commitCompletion now row.pk row.file stores } := by
        simp only [chunkedUploads, completes]
      rw [quiet rfl]
      have completed : PlannedInvariant plan session
          (past.filterMap StatementAction.recording? ++ [.complete now row.pk]) _ :=
        planned.of_step trivial moved
      refine completed.of_sends fun number => ?_
      simp [or_and_right, exists_or, SendsPart]
  | refreshed _ | missing | enough _ _ | tooFew _ | saved _ _ _ | unsaved _ | updated _ _
  | rolledBack _ =>
      rw [quiet rfl]
      exact planned

theorem of_run {before created : Database} {now : Time}
    (made : createUploadSession now session file plan.totalSizeBytes (some plan.chunkSizeBytes)
      before = .ok created)
    {actions : List StatementAction}
    (keeps : ∀ action ∈ actions, plan.KeepsFile session file action)
    (ran : statements.run (.init created) actions = some world) :
    PlannedStatements plan session file actions world := by
  have carried : (∀ action ∈ actions, plan.KeepsFile session file action) →
      PlannedStatements plan session file actions world := by
    refine run_induction (fun past world => (∀ action ∈ past, plan.KeepsFile session file action) →
      PlannedStatements plan session file past world) ?_ ?_ ran
    · refine fun _ => ⟨.of_creation made, ?_⟩
      intro row member key
      obtain ⟨_, _, inserted⟩ := createUploadSession_eq_ok_iff.mp made
      obtain ⟨fresh, _, _, _, rows, _⟩ := Database.insertSession?_eq_some inserted
      change row ∈ created.sessions.rows at member
      rw [rows, List.mem_append, List.mem_singleton] at member
      rcases member with old | rfl
      · exact absurd (Table.mem_keys.mpr ⟨row, old, key⟩) fresh
      · rfl
    · intro past action state next reached stepped ih all
      have before := ih fun other member => all other (List.mem_append_left _ member)
      exact before.step (.of_run reached)
        (all action (List.mem_append_right _ List.mem_cons_self)) stepped
  exact carried keeps

/-- A completion has read the number of parts of the plan. -/
theorem totalParts_eq (invariant : PlannedStatements plan session file past world)
    {row : UploadSession} (knows : world.committed.database.Knows row) (key : row.pk = session) :
    row.totalParts = plan.count := by
  obtain ⟨stored, member, same, total⟩ := invariant.planned.row
  exact (knows stored member (same.trans key.symm)).1.symm.trans total

theorem enough_iff (invariant : PlannedStatements plan session file past world)
    {row : UploadSession} (knows : world.committed.database.Knows row) (key : row.pk = session) :
    row.totalParts ≤ world.committed.database.receivedCount row.pk ↔
      plan.AllSent session (past.filterMap StatementAction.recording?) := by
  rw [invariant.totalParts_eq knows key, key, invariant.planned.receivedCount_eq]
  exact invariant.planned.enough_iff

end PlannedStatements

/-- Clients that keep to the plan, in every interleaving of statements with arbitrary calls of
other sessions, with `mark_file_failed` and with cleanups that leave the file: a completion of the
session gets past its count if and only if every chunk has been sent by then; and when it is
about to commit, its commit leaves the session with exactly the whole file. -/
theorem planned_statements_complete {plan : ChunkPlan} {before created : Database} {now : Time}
    {session file : Uuid}
    (made : createUploadSession now session file plan.totalSizeBytes (some plan.chunkSizeBytes)
      before = .ok created)
    {actions : List StatementAction}
    (keeps : ∀ action ∈ actions, plan.KeepsFile session file action)
    {world : StatementWorld} (ran : statements.run (.init created) actions = some world)
    (completion : Nat) {row : UploadSession} (key : row.pk = session) :
    (world.completions[completion]? = some (.refreshed row) →
      (statements.step world (.count completion) =
          some (world.setPhase completion (.counted row)) ↔
        plan.AllSent session (actions.filterMap StatementAction.recording?))) ∧
    ∀ committing stores,
      world.completions[completion]? = some (.updated committing row stores) →
        plan.AllSent session (actions.filterMap StatementAction.recording?) ∧
        ∃ next, statements.step world (.commit completion) = some next ∧
          next.committed.database.HoldsExpectedParts session plan.count plan.totalSizeBytes := by
  have invariant := PlannedStatements.of_run made keeps ran
  have holds := (StatementInvariant.of_run ran).holds
  constructor
  · intro found
    have knows : world.committed.database.Knows row := holds _ (List.mem_of_getElem? found)
    rw [← invariant.enough_iff knows key]
    simp only [statements, found]
    split_ifs with short
    · refine iff_of_false ?_ (not_le.mpr short)
      intro same
      have phases := congrArg (fun next : StatementWorld => next.completions[completion]?)
        (Option.some.inj same)
      have within := (List.getElem?_eq_some_iff.mp found).1
      simp [StatementWorld.setPhase, within] at phases
    · exact iff_of_true rfl (not_lt.mp short)
  · intro committing stores found
    obtain ⟨⟨⟨knows, enough⟩, there⟩, _⟩ := holds _ (List.mem_of_getElem? found)
    have all := (invariant.enough_iff knows key).mp (enough there)
    have whole := invariant.planned.holdsExpectedParts (invariant.planned.enough_iff.mpr all)
    refine ⟨all, ?_⟩
    simp only [statements, found]
    exact ⟨_, rfl, whole.numbers, whole.tiles, whole.sizes⟩

namespace Sample

/-- The first chunk comes after the completion has begun. -/
def beganEarly : List StatementAction :=
  [.insertPart 0 (uuid 1) (twoChunks.part 2 ""), .refresh (uuid 1), .deleteFiles [uuid 2],
    .insertPart 1 (uuid 1) (twoChunks.part 1 ""), .markFileFailed 2 file.pk ""]

theorem keepsFile_beganEarly :
    ∀ action ∈ beganEarly, twoChunks.KeepsFile (uuid 1) file.pk action := by
  intro action member
  simp only [beganEarly, List.mem_cons, List.not_mem_nil, or_false] at member
  rcases member with rfl | rfl | rfl | rfl | rfl
  · exact fun _ => ⟨by decide, by decide, rfl⟩
  · trivial
  · simp only [ChunkPlan.KeepsFile]
    decide
  · exact fun _ => ⟨by decide, by decide, rfl⟩
  · trivial

theorem allSent_beganEarly : twoChunks.AllSent (uuid 1)
    (beganEarly.filterMap StatementAction.recording?) := by
  intro number positive most
  have count : twoChunks.count = 2 := by decide
  rcases (by omega : number = 1 ∨ number = 2) with rfl | rfl
  · refine ⟨.insertPart 1 (uuid 1) (twoChunks.part 1 ""), ?_, rfl, rfl⟩
    simp [beganEarly, StatementAction.recording?]
  · refine ⟨.insertPart 0 (uuid 1) (twoChunks.part 2 ""), ?_, rfl, rfl⟩
    simp [beganEarly, StatementAction.recording?]

end Sample

theorem planned_statements_complete_beganEarly : ∃ world row,
    statements.run (.init Sample.twoChunksExpected) Sample.beganEarly = some world ∧
      statements.step world (.count 0) = some (world.setPhase 0 (.counted row)) := by
  obtain ⟨world, ran, found⟩ : ∃ world,
      statements.run (.init Sample.twoChunksExpected) Sample.beganEarly = some world ∧
        world.completions[0]? =
          some (.refreshed (newSession 0 (Sample.uuid 1) Sample.file.pk 1000 500)) :=
    ⟨_, rfl, rfl⟩
  have goesOn := (planned_statements_complete Sample.twoChunksExpected_created
    Sample.keepsFile_beganEarly ran 0 rfl).1 found
  exact ⟨world, _, ran, goesOn.mpr Sample.allSent_beganEarly⟩

end Doorito.Portal
