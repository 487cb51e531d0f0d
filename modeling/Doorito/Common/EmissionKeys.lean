import Doorito.Common.EventHistory

/-! What `unique_event_type_idempotency_key` does over whole runs: no two rows share an event
type and a key, and what has been emitted is not emitted again until a cleanup has deleted it,
whatever has become of its delivery. -/

set_option autoImplicit false

namespace Doorito.Common

open Foundation Machine

/-- The columns of the constraint. -/
def OutboxEvent.uniqueColumns (event : OutboxEvent) : String × String :=
  (event.eventType, event.idempotencyKey)

def KeysDistinct (events : EventTable) : Prop :=
  ∀ left ∈ events.rows, ∀ right ∈ events.rows,
    left.uniqueColumns = right.uniqueColumns → left = right

section Steps

variable {world next : World} {action : Action}

theorem OutboxEvent.SameEvent.uniqueColumns {left right : OutboxEvent}
    (same : left.SameEvent right) : left.uniqueColumns = right.uniqueColumns :=
  Prod.ext same.eventType same.idempotencyKey

theorem isUniqueIn_iff {event : OutboxEvent} {events : EventTable} :
    event.isUniqueIn events = true ↔
      ∀ row ∈ events.rows, row.uniqueColumns ≠ event.uniqueColumns := by
  simp [OutboxEvent.isUniqueIn, OutboxEvent.uniqueColumns, Prod.ext_iff]

/-- Every row of the next table is new, or it is a row of the table with the same columns. -/
theorem row_before_step (stepped : outbox.step world action = some next) {row : OutboxEvent}
    (member : row ∈ next.events.rows) :
    (∃ old ∈ world.events.rows, old.SameEvent row) ∨ Emits world action row := by
  rcases step_row_origin stepped member with
    old | ⟨now, pk, arguments, rfl, fresh, recorded, rfl⟩ |
    ⟨_, _, _, _, old, _, oldMember, saves⟩ | ⟨now, _, old, _, oldMember, _, _, rfl⟩
  · exact .inl ⟨row, old, .refl row⟩
  · obtain ⟨grown, emits⟩ := emits_of_issued stepped fresh recorded
    exact .inr ⟨now, pk, arguments, grown, rfl, fresh, emits, rfl⟩
  · obtain ⟨_, _, _, _, _, _, _, _, _, rfl⟩ := saves
    exact .inl ⟨old, oldMember, .saveOnto _ _ _⟩
  · exact .inl ⟨old, oldMember, .reset _ _⟩

/-- An event is emitted only if no row of the table has its type and its key. -/
theorem Emits.isNew {event : OutboxEvent} (emits : Emits world action event) :
    ∀ row ∈ world.events.rows, row.uniqueColumns ≠ event.uniqueColumns := by
  obtain ⟨now, pk, arguments, grown, _, _, emitted, rfl⟩ := emits
  exact isUniqueIn_iff.mp (emitEvent_ok_iff.mp ⟨grown, emitted⟩).2.1

theorem Emits.mem_next {event : OutboxEvent} (emits : Emits world action event)
    (stepped : outbox.step world action = some next) : event ∈ next.events.rows := by
  obtain ⟨now, pk, arguments, grown, rfl, fresh, emitted, rfl⟩ := emits
  simp only [outbox, World.step, if_neg fresh, emitted] at stepped
  cases stepped
  rw [emitEvent_rows emitted]
  exact List.mem_append_right _ (List.mem_singleton_self _)

theorem step_keysDistinct (distinct : KeysDistinct world.events)
    (stepped : outbox.step world action = some next) : KeysDistinct next.events := by
  intro left leftMember right rightMember same
  refine Table.eq_of_key_eq leftMember rightMember ?_
  rcases row_before_step stepped leftMember with ⟨first, firstMember, firstSame⟩ | leftEmits <;>
    rcases row_before_step stepped rightMember with ⟨second, secondMember, secondSame⟩ | rightEmits
  · have columns := firstSame.uniqueColumns.trans (same.trans secondSame.uniqueColumns.symm)
    have one := distinct first firstMember second secondMember columns
    exact firstSame.pk.symm.trans ((congrArg OutboxEvent.pk one).trans secondSame.pk)
  · exact absurd (firstSame.uniqueColumns.trans same) (rightEmits.isNew first firstMember)
  · exact absurd (secondSame.uniqueColumns.trans same.symm) (leftEmits.isNew second secondMember)
  · rw [leftEmits.unique rightEmits]

end Steps

/-- The delete of a cleanup run takes the row with this key. -/
def CleansUp (world : World) (action : Action) (pk : Uuid) : Prop :=
  ∃ cleanup totalTerminal batchPks, action = .cleanupDelete cleanup ∧
    world.cleanups[cleanup]? = some (.selected totalTerminal batchPks) ∧ pk ∈ batchPks

/-- A row stays the row of its emission through a run in which no cleanup takes it. -/
theorem row_stays {start final : World} {actions : List Action}
    (ran : outbox.run start actions = some final) {row : OutboxEvent}
    (member : row ∈ start.events.rows) :
    (∃ later ∈ final.events.rows, later.pk = row.pk ∧ later.uniqueColumns = row.uniqueColumns) ∨
      ∃ world action, outbox.Takes start actions world action ∧ CleansUp world action row.pk := by
  refine run_induction (fun past world =>
      (∃ later ∈ world.events.rows, later.pk = row.pk ∧
        later.uniqueColumns = row.uniqueColumns) ∨
      ∃ state action, outbox.Takes start past state action ∧ CleansUp state action row.pk)
    (.inl ⟨row, member, rfl, rfl⟩) ?_ ran
  intro past action world next reached stepped before
  rcases before with ⟨later, laterMember, key, columns⟩ | ⟨state, taken, takes, cleans⟩
  · rcases step_row_fate stepped laterMember with
      ⟨kept, keptMember, keptKey, type, idempotency⟩ | ⟨cleanup, total, batchPks, is, was, chosen⟩
    · exact .inl ⟨kept, keptMember, keptKey.trans key,
        (Prod.ext type idempotency : kept.uniqueColumns = later.uniqueColumns).trans columns⟩
    · exact .inr ⟨world, action, takes_last reached, cleanup, total, batchPks, is, was,
        key ▸ chosen⟩
  · exact .inr ⟨state, taken, takes.append _, cleans⟩

/-- In every interleaving from a table that satisfies the constraint, the table satisfies it,
and an event whose type and key have been emitted before is emitted only after a cleanup has
deleted the row of the first: retries, resets and failures do not reopen the key. -/
theorem emissions_are_deduplicated {events : EventTable} (distinct : KeysDistinct events)
    {before : List Action} {earlier : World}
    (reached : outbox.run (.init events) before = some earlier) :
    KeysDistinct earlier.events ∧
      ∀ action origin next between later repetition repeated, Emits earlier action origin →
        outbox.step earlier action = some next → outbox.run next between = some later →
        Emits later repetition repeated → repeated.uniqueColumns = origin.uniqueColumns →
          ∃ world deletion, outbox.Takes next between world deletion ∧
            CleansUp world deletion origin.pk := by
  refine ⟨run_preserves (fun _ _ _ => step_keysDistinct) distinct reached, ?_⟩
  intro action origin next between later repetition repeated emits stepped ran again columns
  rcases row_stays ran (emits.mem_next stepped) with ⟨row, member, _, same⟩ | cleaned
  · exact absurd (same.trans columns.symm) (again.isNew row member)
  · exact cleaned

namespace Sample

/-- An event is delivered, and its row deleted a week later. -/
def deliveredAndCleaned : List Action :=
  [.beginFetch 0 20 .stored fun _ => false, .commitFetch 0] ++ finishRun 0 0 200 ++
    selectFailed ++ [.cleanupDelete 0]

def emittedOnce : World := after .empty [.emitEvent 0 key arguments]

def laterEvent : OutboxEvent := arguments.event (hours 200) expiringEvent.pk

end Sample

theorem emissions_are_deduplicated_deliveredAndCleaned :
    ∃ world deletion, outbox.Takes Sample.emittedOnce Sample.deliveredAndCleaned world deletion ∧
      CleansUp world deletion Sample.key := by
  have ran : outbox.run (.init .empty) [] = some (.init .empty) := rfl
  have distinct : KeysDistinct .empty := by
    intro left member
    cases member
  refine (emissions_are_deduplicated distinct ran).2 (.emitEvent 0 Sample.key Sample.arguments)
    Sample.event _ Sample.deliveredAndCleaned
    (Sample.after .empty (.emitEvent 0 Sample.key Sample.arguments :: Sample.deliveredAndCleaned))
    (.emitEvent (hours 200) Sample.laterEvent.pk Sample.arguments) Sample.laterEvent
    ⟨_, _, _, _, rfl, List.not_mem_nil, rfl, rfl⟩ rfl rfl ?_ rfl
  exact ⟨_, _, _, _, rfl, by decide, rfl, rfl⟩

end Doorito.Common
