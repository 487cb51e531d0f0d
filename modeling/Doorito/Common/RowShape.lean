import Doorito.Common.OutboxWorld

/-! The status of an outbox row determines the shape of its other columns, in
every state that concurrent operations can reach. A run may write back a copy of a
row that has changed since it was read; the proof therefore carries an invariant
of the copies that runs hold between their phases. -/

set_option autoImplicit false

namespace Doorito.Common

open Foundation

/-- What the status of a row says about its other columns. -/
structure OutboxEvent.RowShape (row : OutboxEvent) : Prop where
  pending : row.status = .pending →
    row.nextAttemptAt ≠ none ∧ row.deliveredAt = none ∧ row.attempts < row.maxAttempts
  delivered : row.status = .delivered →
    row.nextAttemptAt = none ∧ row.deliveredAt ≠ none ∧ row.errorMessage = "" ∧
      1 ≤ row.attempts ∧ row.attempts ≤ row.maxAttempts
  failed : row.status = .failed →
    row.nextAttemptAt = none ∧ row.deliveredAt = none ∧ row.errorMessage ≠ "" ∧
      row.attempts = row.maxAttempts

def World.StartsShaped (world : World) : Prop :=
  ∃ events : EventTable, world = .init events ∧
    ∀ row ∈ events.rows, row.RowShape ∧ 1 ≤ row.maxAttempts

/-- What holds of an object that a run read, whatever became of its row since. -/
structure CopyShape (world : World) (event : OutboxEvent) : Prop where
  pending : event.status = .pending
  undelivered : event.deliveredAt = none
  left : event.attempts < event.maxAttempts
  issued : event.pk ∈ world.issued
  budget : ∀ row ∈ world.events.rows, row.pk = event.pk →
    row.maxAttempts = event.maxAttempts

structure ShapeInvariant (world : World) : Prop where
  issued : world.RowsIssued
  rows : ∀ row ∈ world.events.rows, row.RowShape ∧ 1 ≤ row.maxAttempts
  copies : ∀ phase ∈ world.runs, ∀ event ∈ phase.batch, CopyShape world event
  errors : ∀ batch results, .delivered batch results ∈ world.runs →
    ∀ key result, results.lookup key = some result → result.allOk = false →
      result.error ≠ ""

theorem emitted_shape (arguments : EmitArguments) (now : Time) (pk : Uuid) :
    (arguments.event now pk).RowShape := by
  constructor <;> simp [EmitArguments.event]

theorem reset_shape {row : OutboxEvent} {now : Time} (shape : row.RowShape)
    (failed : row.status = .failed) (budget : 1 ≤ row.maxAttempts) :
    (row.reset now).RowShape := by
  have undelivered := (shape.failed failed).2.1
  constructor <;> simp [OutboxEvent.reset, undelivered]
  omega

/-- Writing back a copy gives the row the shape of its new status: all columns
that the shape speaks of come from the copy. -/
theorem saved_shape {world : World} {event row : OutboxEvent} {now : Time} {draw : Draw}
    {result : EventResult} (copy : CopyShape world event)
    (error : result.allOk = false → result.error ≠ "")
    (budget : row.maxAttempts = event.maxAttempts) :
    ((applyResult now draw result event).saveOnto now row).RowShape := by
  have left := copy.left
  rcases applyResult_cases now draw result event with
    ⟨_, status, delivered, next, text⟩ | ⟨failed, spent, status, delivered, next, text⟩ |
    ⟨failed, remains, status, delivered, next, text⟩
  · constructor <;> simp [status, delivered, next, text, budget]
    omega
  · constructor <;> simp [status, delivered, next, text, budget, copy.undelivered, error failed]
    omega
  · constructor <;> simp [status, delivered, next, budget, copy.undelivered, copy.pending]
    omega

theorem maxAttempts_of_origin {world next : World} {action : Action} {row : OutboxEvent}
    (origin : RowOrigin world action next row) :
    row.pk ∉ world.issued ∨
      ∃ old ∈ world.events.rows, old.pk = row.pk ∧ old.maxAttempts = row.maxAttempts := by
  rcases origin with
    old | ⟨_, _, _, _, fresh, _, rfl⟩ | ⟨_, _, _, _, old, _, oldMember, saves⟩ |
    ⟨_, _, old, _, oldMember, _, _, rfl⟩
  · exact .inr ⟨row, old, rfl, rfl⟩
  · exact .inl fresh
  · obtain ⟨_, _, _, _, _, _, _, _, _, rfl⟩ := saves
    exact .inr ⟨old, oldMember, rfl, rfl⟩
  · exact .inr ⟨old, oldMember, rfl, rfl⟩

theorem CopyShape.step {world next : World} {action : Action} {event : OutboxEvent}
    (copy : CopyShape world event) (stepped : outbox.step world action = some next) :
    CopyShape next event := by
  refine ⟨copy.pending, copy.undelivered, copy.left, step_issued stepped copy.issued, ?_⟩
  intro row member key
  rcases maxAttempts_of_origin (step_row_origin stepped member) with
    fresh | ⟨old, oldMember, oldKey, budget⟩
  · exact absurd (key ▸ copy.issued) fresh
  · rw [← budget]
    exact copy.budget old oldMember (oldKey.trans key)

theorem fetched_copy {world : World} (invariant : ShapeInvariant world) {now : Time}
    {batchSize : Nat} {order : RowOrder OutboxEvent} {locked : Uuid → Bool}
    {event : OutboxEvent}
    (member : event ∈ fetchPending now batchSize order locked world.events) :
    CopyShape world event := by
  obtain ⟨row, due, _⟩ := mem_fetchPending member
  have pending := (isDue_iff.mp due).1
  obtain ⟨_, undelivered, left⟩ := (invariant.rows event row).1.pending pending
  refine ⟨pending, undelivered, left, invariant.issued event row, ?_⟩
  intro other otherMember key
  rw [Table.eq_of_key_eq otherMember row key]

theorem step_shape {world next : World} {action : Action}
    (invariant : ShapeInvariant world)
    (stepped : outbox.step world action = some next) : ShapeInvariant next := by
  refine ⟨step_rowsIssued invariant.issued stepped, ?_, ?_, ?_⟩
  · intro row member
    rcases step_row_origin stepped member with
      old | ⟨now, pk, arguments, _, _, _, rfl⟩ | ⟨_, _, _, _, old, _, oldMember, saves⟩ |
      ⟨_, _, old, _, oldMember, failed, _, rfl⟩
    · exact invariant.rows row old
    · exact ⟨emitted_shape arguments now pk, by simp [EmitArguments.event]⟩
    · obtain ⟨batch, results, event, result, found, _, eventMember, lookup, key, rfl⟩ := saves
      have run := List.mem_of_getElem? found
      have copy := invariant.copies _ run event eventMember
      refine ⟨saved_shape copy (invariant.errors batch results run event.pk result lookup) ?_, ?_⟩
      · exact copy.budget old oldMember key.symm
      · exact (invariant.rows old oldMember).2
    · obtain ⟨shape, budget⟩ := invariant.rows old oldMember
      exact ⟨reset_shape shape failed budget, budget⟩
  · intro phase member event eventMember
    refine CopyShape.step ?_ stepped
    obtain ⟨run, found⟩ := List.mem_iff_getElem?.mp member
    rcases step_phase_origin stepped found with
      same | rfl | ⟨_, now, batchSize, order, skipped, rfl⟩ | ⟨batch, was, rfl⟩ |
      ⟨batch, endpoints, http, was, rfl⟩
    · exact invariant.copies phase (List.mem_of_getElem? same) event eventMember
    · cases eventMember
    · simp only [RunPhase.batch] at eventMember
      exact fetched_copy invariant eventMember
    · exact invariant.copies _ (List.mem_of_getElem? was) event eventMember
    · exact invariant.copies _ (List.mem_of_getElem? was) event eventMember
  · intro batch results member key result lookup failed
    obtain ⟨run, found⟩ := List.mem_iff_getElem?.mp member
    rcases step_phase_origin stepped found with
      same | ended | ⟨_, _, _, _, _, begun⟩ | ⟨_, _, committed⟩ |
      ⟨_, endpoints, http, _, shape⟩
    · exact invariant.errors batch results (List.mem_of_getElem? same) key result lookup failed
    · cases ended
    · cases begun
    · cases committed
    · cases shape
      obtain ⟨before, after, split, _⟩ := List.lookup_eq_some_iff.mp lookup
      have entry : (key, result) ∈ (deliverEvents http endpoints batch).results := by
        simp [split]
      exact results_error_ne_empty entry failed

/-- In every reachable state every row has the shape of its status, and a pending
row is visible to the query for due events from its due time on. -/
theorem rows_keep_shape {world : World}
    (reachable : outbox.Reachable World.StartsShaped world)
    {row : OutboxEvent} (member : row ∈ world.events.rows) :
    row.RowShape ∧
      (row.status = .pending → ∃ due, ∀ now, due ≤ now → row.isDue now = true) := by
  have invariant : ShapeInvariant world := by
    refine reachable.satisfies ?_ (fun _ _ _ => step_shape)
    intro start starts
    obtain ⟨events, rfl, shaped⟩ := starts
    refine ⟨rowsIssued_init events, shaped, ?_, ?_⟩
    · intro phase none
      cases none
    · intro batch results none
      cases none
  have shape := (invariant.rows row member).1
  refine ⟨shape, ?_⟩
  intro pending
  obtain ⟨due, set⟩ := Option.ne_none_iff_exists'.mp (shape.pending pending).1
  exact ⟨due, fun now late => isDue_iff.mpr ⟨pending, due, set, late⟩⟩

/-- After one emission and one accepted delivery the only row is delivered, in its
shape. -/
theorem rows_keep_shape_deliverOnce :
    (Sample.after .empty Sample.deliverOnce).events.rows.map (·.status) = [.delivered] ∧
      ∀ row ∈ (Sample.after .empty Sample.deliverOnce).events.rows, row.RowShape := by
  refine ⟨rfl, fun row member => ?_⟩
  refine (rows_keep_shape ⟨.init .empty, Sample.deliverOnce, ⟨.empty, rfl, ?_⟩, rfl⟩
    member).1
  intro stored none
  cases none

end Doorito.Common
