import Doorito.Common.DeliveryProperties

/-! Laws of the fetch and of the update: what a fetched event satisfies, which
columns a result sets, and what the update transaction leaves in the table. -/

set_option autoImplicit false

namespace Doorito.Common

open Foundation

/-! ## Fetch -/

section Fetch

variable {now : Time} {batchSize : Nat} {order : RowOrder OutboxEvent}
  {locked : Uuid → Bool} {events : EventTable}

theorem isDue_iff {event : OutboxEvent} :
    event.isDue now = true ↔
      event.status = .pending ∧ ∃ due, event.nextAttemptAt = some due ∧ due ≤ now := by
  cases next : event.nextAttemptAt <;> simp [OutboxEvent.isDue, next]

theorem mem_fetchPending {event : OutboxEvent}
    (member : event ∈ fetchPending now batchSize order locked events) :
    event ∈ events.rows ∧ event.isDue now = true ∧ locked event.pk = false := by
  have arranged := (order.perm _).subset (List.mem_of_mem_take member)
  simpa using List.mem_filter.mp arranged

theorem fetchPending_nodup :
    ((fetchPending now batchSize order locked events).map (·.pk)).Nodup := by
  have selected : ((events.rows.filter fun event =>
      event.isDue now && !locked event.pk).map (·.pk)).Nodup :=
    events.unique.sublist (List.filter_sublist.map _)
  have arranged := ((order.perm _).map (·.pk)).nodup_iff.mpr selected
  exact arranged.sublist ((List.take_sublist _ _).map _)

end Fetch

/-! ## Columns -/

section Columns

variable (now : Time) (object row : OutboxEvent)

@[simp] theorem saveOnto_status : (object.saveOnto now row).status = object.status := rfl

@[simp] theorem saveOnto_attempts :
    (object.saveOnto now row).attempts = object.attempts := rfl

@[simp] theorem saveOnto_maxAttempts :
    (object.saveOnto now row).maxAttempts = row.maxAttempts := rfl

@[simp] theorem saveOnto_nextAttemptAt :
    (object.saveOnto now row).nextAttemptAt = object.nextAttemptAt := rfl

@[simp] theorem saveOnto_deliveredAt :
    (object.saveOnto now row).deliveredAt = object.deliveredAt := rfl

@[simp] theorem saveOnto_errorMessage :
    (object.saveOnto now row).errorMessage = object.errorMessage := rfl

variable (draw : Draw) (result : EventResult) (event : OutboxEvent)

@[simp] theorem applyResult_pk :
    (applyResult now draw result event).pk = event.pk := by
  unfold applyResult
  cases verdict result (event.attempts + 1) event.maxAttempts <;> rfl

@[simp] theorem applyResult_attempts :
    (applyResult now draw result event).attempts = event.attempts + 1 := by
  unfold applyResult
  cases verdict result (event.attempts + 1) event.maxAttempts <;> rfl

theorem verdict_delivered_iff {attempts maxAttempts : Nat} :
    verdict result attempts maxAttempts = .delivered ↔ result.allOk = true := by
  unfold verdict
  split_ifs with ok spent <;> simp [ok]

theorem verdict_failed_iff {attempts maxAttempts : Nat} :
    verdict result attempts maxAttempts = .failed ↔
      result.allOk = false ∧ maxAttempts ≤ attempts := by
  unfold verdict
  split_ifs with ok spent <;> simp_all

theorem verdict_retry_iff {attempts maxAttempts : Nat} :
    verdict result attempts maxAttempts = .retry ↔
      result.allOk = false ∧ attempts < maxAttempts := by
  unfold verdict
  split_ifs with ok spent <;> simp_all

theorem applyResult_cases :
    (result.allOk = true ∧
      (applyResult now draw result event).status = .delivered ∧
      (applyResult now draw result event).deliveredAt = some now ∧
      (applyResult now draw result event).nextAttemptAt = none ∧
      (applyResult now draw result event).errorMessage = "") ∨
    (result.allOk = false ∧ event.maxAttempts ≤ event.attempts + 1 ∧
      (applyResult now draw result event).status = .failed ∧
      (applyResult now draw result event).deliveredAt = event.deliveredAt ∧
      (applyResult now draw result event).nextAttemptAt = none ∧
      (applyResult now draw result event).errorMessage = result.error) ∨
    (result.allOk = false ∧ event.attempts + 1 < event.maxAttempts ∧
      (applyResult now draw result event).status = event.status ∧
      (applyResult now draw result event).deliveredAt = event.deliveredAt ∧
      (applyResult now draw result event).nextAttemptAt =
        some (now + timedelta (retrySeconds (event.attempts + 1) draw)) ∧
      (applyResult now draw result event).errorMessage = result.error) := by
  unfold applyResult
  cases branch : verdict result (event.attempts + 1) event.maxAttempts with
  | delivered => exact .inl ⟨(verdict_delivered_iff result).mp branch, rfl, rfl, rfl, rfl⟩
  | failed =>
      obtain ⟨failed, spent⟩ := (verdict_failed_iff result).mp branch
      exact .inr (.inl ⟨failed, spent, rfl, rfl, rfl, rfl⟩)
  | retry =>
      obtain ⟨failed, left⟩ := (verdict_retry_iff result).mp branch
      exact .inr (.inr ⟨failed, left, rfl, rfl, rfl, rfl⟩)

end Columns

theorem saved_pending {now : Time} {draw : Draw} {result : EventResult}
    {event row : OutboxEvent}
    (pending : ((applyResult now draw result event).saveOnto now row).status = .pending) :
    result.allOk = false ∧ event.attempts + 1 < event.maxAttempts := by
  rw [saveOnto_status] at pending
  rcases applyResult_cases now draw result event with
    ⟨_, status, _⟩ | ⟨_, _, status, _⟩ | ⟨failed, left, _⟩
  · rw [status] at pending
    cases pending
  · rw [status] at pending
    cases pending
  · exact ⟨failed, left⟩

/-! ## The update transaction -/

section Update

variable {now : Time} {random : Uuid → Draw} {refuses : OutboxEvent → Bool} {results : Results}

@[simp] theorem keys_writeEvent (object : OutboxEvent) (events : EventTable) :
    (writeEvent now object events).keys = events.keys :=
  Table.keys_updateWhere _ _ _ _

/-- Phase 3 can save the object: it still has its row, and the database takes its values. -/
structure CanSave (refuses : OutboxEvent → Bool) (events : EventTable) (object : OutboxEvent) :
    Prop where
  present : object.pk ∈ events.keys
  taken : refuses object = false

theorem saveEvent_of_canSave {object : OutboxEvent} {events : EventTable}
    (can : CanSave refuses events object) :
    saveEvent now refuses object events = .ok (writeEvent now object events) := by
  simp [saveEvent, can.present, can.taken]

theorem saveEvent_of_not_canSave {object : OutboxEvent} {events : EventTable}
    (cannot : ¬ CanSave refuses events object) :
    ∃ error, saveEvent now refuses object events = .error error := by
  unfold saveEvent
  split_ifs with refused present
  · exact ⟨_, rfl⟩
  · exact absurd ⟨present, Bool.eq_false_iff.mpr refused⟩ cannot
  · exact ⟨_, rfl⟩

section Step

variable {event : OutboxEvent} {rest : List OutboxEvent} {progress : Progress}

theorem updateEvents_cons_of_none (skipped : results.lookup event.pk = none) :
    updateEvents now random refuses results (event :: rest) progress =
      updateEvents now random refuses results rest progress := by
  simp only [updateEvents, skipped]

variable {result : EventResult}

theorem updateEvents_cons_of_canSave (found : results.lookup event.pk = some result)
    (can : CanSave refuses progress.events (applyResult now (random event.pk) result event)) :
    updateEvents now random refuses results (event :: rest) progress =
      updateEvents now random refuses results rest
        { events := writeEvent now (applyResult now (random event.pk) result event)
            progress.events
          deliveredCount := progress.deliveredCount +
            if verdict result (event.attempts + 1) event.maxAttempts = .delivered
            then 1 else 0
          failedCount := progress.failedCount +
            if verdict result (event.attempts + 1) event.maxAttempts = .failed
            then 1 else 0 } := by
  simp only [updateEvents, found, saveEvent_of_canSave can]

theorem updateEvents_cons_of_not_canSave (found : results.lookup event.pk = some result)
    (cannot : ¬ CanSave refuses progress.events (applyResult now (random event.pk) result event)) :
    ∃ error, updateEvents now random refuses results (event :: rest) progress =
      .error error := by
  obtain ⟨error, failed⟩ : ∃ error, saveEvent now refuses
      (applyResult now (random event.pk) result event) progress.events = .error error :=
    saveEvent_of_not_canSave cannot
  exact ⟨error, by simp only [updateEvents, found, failed]⟩

/-- What a transaction that commits does with its first event. -/
theorem updateEvents_cons_cases {committed : Progress}
    (updated : updateEvents now random refuses results (event :: rest) progress =
      .ok committed) :
    (results.lookup event.pk = none ∧
        updateEvents now random refuses results rest progress = .ok committed) ∨
      ∃ result, results.lookup event.pk = some result ∧
        CanSave refuses progress.events (applyResult now (random event.pk) result event) ∧
        updateEvents now random refuses results rest
          { events := writeEvent now (applyResult now (random event.pk) result event)
              progress.events
            deliveredCount := progress.deliveredCount +
              if verdict result (event.attempts + 1) event.maxAttempts = .delivered
              then 1 else 0
            failedCount := progress.failedCount +
              if verdict result (event.attempts + 1) event.maxAttempts = .failed
              then 1 else 0 } = .ok committed := by
  cases found : results.lookup event.pk with
  | none => exact .inl ⟨rfl, updateEvents_cons_of_none found ▸ updated⟩
  | some result =>
      by_cases can : CanSave refuses progress.events
          (applyResult now (random event.pk) result event)
      · exact .inr ⟨result, rfl, can, updateEvents_cons_of_canSave found can ▸ updated⟩
      · obtain ⟨error, failed⟩ := updateEvents_cons_of_not_canSave found can
        rw [failed] at updated
        cases updated

end Step

theorem canSave_writeEvent {written object : OutboxEvent} {events : EventTable} :
    CanSave refuses (writeEvent now written events) object ↔ CanSave refuses events object := by
  constructor
  · intro can
    exact ⟨keys_writeEvent written events ▸ can.present, can.taken⟩
  · intro can
    exact ⟨(keys_writeEvent written events).symm ▸ can.present, can.taken⟩

/-- The transaction commits exactly if each result can be saved. -/
theorem updateEvents_ok_iff {batch : List OutboxEvent} {progress : Progress} :
    (∃ committed, updateEvents now random refuses results batch progress = .ok committed) ↔
      ∀ event ∈ batch, ∀ result, results.lookup event.pk = some result →
        CanSave refuses progress.events (applyResult now (random event.pk) result event) := by
  induction batch generalizing progress with
  | nil => simp [updateEvents]
  | cons event rest ih =>
      rw [List.forall_mem_cons]
      cases found : results.lookup event.pk with
      | none =>
          rw [updateEvents_cons_of_none found, ih]
          simp
      | some result =>
          simp only [Option.some.injEq, forall_eq']
          by_cases can : CanSave refuses progress.events
              (applyResult now (random event.pk) result event)
          · rw [updateEvents_cons_of_canSave found can, ih]
            simp only [canSave_writeEvent, can, true_and]
          · obtain ⟨error, failed⟩ : ∃ error, updateEvents now random refuses results
                (event :: rest) progress = .error error :=
              updateEvents_cons_of_not_canSave found can
            simp [failed, can]

def updateRow (now : Time) (random : Uuid → Draw) (results : Results) :
    List OutboxEvent → OutboxEvent → OutboxEvent
  | [], row => row
  | event :: rest, row =>
      match results.lookup event.pk with
      | none => updateRow now random results rest row
      | some result =>
          updateRow now random results rest
            (if row.pk = event.pk then
              (applyResult now (random event.pk) result event).saveOnto now row
            else row)

@[simp] theorem pk_updateRow (batch : List OutboxEvent) (row : OutboxEvent) :
    (updateRow now random results batch row).pk = row.pk := by
  induction batch generalizing row with
  | nil => rfl
  | cons event rest ih =>
      cases found : results.lookup event.pk with
      | none => simp only [updateRow, found, ih]
      | some result =>
          simp only [updateRow, found, ih]
          split_ifs <;> rfl

theorem updateRow_cases (batch : List OutboxEvent) (row : OutboxEvent) :
    updateRow now random results batch row = row ∨
      ∃ event ∈ batch, ∃ result, results.lookup event.pk = some result ∧
        event.pk = row.pk ∧ updateRow now random results batch row =
          (applyResult now (random event.pk) result event).saveOnto now row := by
  induction batch generalizing row with
  | nil => exact .inl rfl
  | cons event rest ih =>
      cases found : results.lookup event.pk with
      | none =>
          simp only [updateRow, found]
          refine (ih row).imp_right ?_
          intro saved
          obtain ⟨later, member, shape⟩ := saved
          exact ⟨later, List.mem_cons_of_mem _ member, shape⟩
      | some result =>
          simp only [updateRow, found]
          split_ifs with same
          · -- A later object with the same key would hide the columns of this one.
            rcases ih ((applyResult now (random event.pk) result event).saveOnto now row) with
              kept | ⟨later, member, other, laterFound, key, shape⟩
            · exact .inr ⟨event, List.mem_cons_self, result, found, same.symm, kept⟩
            · exact .inr ⟨later, List.mem_cons_of_mem _ member, other, laterFound, key, shape⟩
          · refine (ih row).imp_right ?_
            intro saved
            obtain ⟨later, member, shape⟩ := saved
            exact ⟨later, List.mem_cons_of_mem _ member, shape⟩

theorem updateRow_of_unsaved {batch : List OutboxEvent} {row : OutboxEvent}
    (unsaved : ∀ event ∈ batch, event.pk = row.pk → results.lookup event.pk = none) :
    updateRow now random results batch row = row := by
  rcases updateRow_cases batch row with kept | ⟨event, member, result, found, key, _⟩
  · exact kept
  · rw [unsaved event member key] at found
    cases found

theorem updateRow_of_mem {batch : List OutboxEvent} (distinct : (batch.map (·.pk)).Nodup)
    {event row : OutboxEvent} (member : event ∈ batch) {result : EventResult}
    (found : results.lookup event.pk = some result) (key : row.pk = event.pk) :
    updateRow now random results batch row =
      (applyResult now (random event.pk) result event).saveOnto now row := by
  induction batch generalizing row with
  | nil => cases member
  | cons first rest ih =>
      rw [List.map_cons, List.nodup_cons] at distinct
      rcases List.mem_cons.mp member with rfl | later
      · simp only [updateRow, found, if_pos key]
        refine updateRow_of_unsaved ?_
        intro other otherMember same
        have listed : other.pk ∈ rest.map (·.pk) := List.mem_map_of_mem otherMember
        rw [same, OutboxEvent.pk_saveOnto, key] at listed
        exact absurd listed distinct.1
      · have different : row.pk ≠ first.pk := by
          intro same
          have listed : event.pk ∈ rest.map (·.pk) := List.mem_map_of_mem later
          rw [← key, same] at listed
          exact distinct.1 listed
        cases firstFound : results.lookup first.pk with
        | none => simpa only [updateRow, firstFound] using ih distinct.2 later key
        | some other =>
            simpa only [updateRow, firstFound, if_neg different] using ih distinct.2 later key

theorem updateEvents_rows {batch : List OutboxEvent} {progress committed : Progress}
    (updated : updateEvents now random refuses results batch progress = .ok committed) :
    committed.events.rows =
      progress.events.rows.map (updateRow now random results batch) := by
  induction batch generalizing progress with
  | nil =>
      cases updated
      simp [updateRow]
  | cons event rest ih =>
      rcases updateEvents_cons_cases updated with ⟨found, later⟩ | ⟨result, found, _, later⟩
      · simp only [ih later, updateRow, found]
      · rw [ih later, writeEvent, Table.rows_updateWhere, List.map_map]
        refine List.map_congr_left fun row _ => ?_
        simp [updateRow, found]

def branchOf (results : Results) (event : OutboxEvent) : Option Verdict :=
  (results.lookup event.pk).map fun result =>
    verdict result (event.attempts + 1) event.maxAttempts

theorem updateEvents_counts {batch : List OutboxEvent} {progress committed : Progress}
    (updated : updateEvents now random refuses results batch progress = .ok committed) :
    committed.deliveredCount = progress.deliveredCount +
        batch.countP (fun event => branchOf results event = some .delivered) ∧
      committed.failedCount = progress.failedCount +
        batch.countP (fun event => branchOf results event = some .failed) := by
  induction batch generalizing progress with
  | nil =>
      cases updated
      simp
  | cons event rest ih =>
      rw [List.countP_cons, List.countP_cons]
      rcases updateEvents_cons_cases updated with ⟨found, later⟩ | ⟨result, found, _, later⟩
      · simpa [branchOf, found] using ih later
      · obtain ⟨delivered, failed⟩ := ih later
        have branch : branchOf results event =
            some (verdict result (event.attempts + 1) event.maxAttempts) := by
          simp [branchOf, found]
        simp only [branch, Option.some.injEq, decide_eq_true_eq]
        constructor
        · rw [delivered, Nat.add_assoc, Nat.add_comm (rest.countP _)]
        · rw [failed, Nat.add_assoc, Nat.add_comm (rest.countP _)]

theorem updateEvents_keys {batch : List OutboxEvent} {progress committed : Progress}
    (updated : updateEvents now random refuses results batch progress = .ok committed) :
    committed.events.keys = progress.events.keys := by
  induction batch generalizing progress with
  | nil =>
      cases updated
      rfl
  | cons event rest ih =>
      rcases updateEvents_cons_cases updated with ⟨_, later⟩ | ⟨_, _, _, later⟩
      · exact ih later
      · rw [ih later, keys_writeEvent]

end Update

/-! ## The other writers -/

theorem emitEvent_rows {now : Time} {pk : Uuid} {arguments : EmitArguments}
    {events grown : EventTable}
    (emitted : emitEvent now pk arguments events = .ok grown) :
    grown.rows = events.rows ++ [arguments.event now pk] := by
  simp only [emitEvent] at emitted
  split_ifs at emitted
  cases inserted : events.insert? (arguments.event now pk) with
  | none => simp [inserted] at emitted
  | some table =>
      simp only [inserted, Except.ok.injEq] at emitted
      rw [← emitted]
      exact (Table.insert?_eq_some_iff.mp inserted).2

theorem emitEvent_ok_iff {now : Time} {pk : Uuid} {arguments : EmitArguments}
    {events : EventTable} :
    (∃ grown, emitEvent now pk arguments events = .ok grown) ↔
      (arguments.event now pk).fitsColumns ∧ (arguments.event now pk).isUniqueIn events ∧
        pk ∉ events.keys := by
  unfold emitEvent
  by_cases fits : (arguments.event now pk).fitsColumns
  · by_cases unique : (arguments.event now pk).isUniqueIn events
    · by_cases fresh : pk ∉ events.keys
      · have inserted : events.insert? (arguments.event now pk) = some _ := dif_pos fresh
        simp [fits, unique, fresh, inserted]
      · have rejected : events.insert? (arguments.event now pk) = none := dif_neg fresh
        simp [fits, unique, fresh, rejected]
    · simp [fits, unique]
  · simp [fits]

theorem mem_retryFailedEvents {now : Time} {selected : List Uuid} {events : EventTable}
    {row : OutboxEvent} (member : row ∈ (retryFailedEvents now selected events).rows) :
    row ∈ events.rows ∨ ∃ old ∈ events.rows, old.status = .failed ∧ old.pk ∈ selected ∧
      row = old.reset now := by
  rw [retryFailedEvents, Table.mem_updateWhere] at member
  obtain ⟨old, oldMember, shape⟩ := member
  split at shape
  · next chosen =>
    have both : old.status = .failed ∧ old.pk ∈ selected := by simpa using chosen
    exact .inr ⟨old, oldMember, both.1, both.2, shape.symm⟩
  · exact .inl (shape ▸ oldMember)

theorem mem_deleteEvents {keys : List Uuid} {events : EventTable} {row : OutboxEvent} :
    row ∈ (deleteEvents keys events).rows ↔ row ∈ events.rows ∧ row.pk ∉ keys := by
  rw [deleteEvents, Table.mem_deleteWhere, decide_eq_false_iff_not]

theorem mem_selectTerminal {cutoff : Time} {events : EventTable} {pk : Uuid}
    (member : pk ∈ selectTerminal cutoff events) :
    ∃ row ∈ events.rows, row.pk = pk ∧ row.isExpiredTerminal cutoff = true := by
  obtain ⟨row, sorted, rfl⟩ := List.mem_map.mp (List.mem_of_mem_take member)
  obtain ⟨rowMember, terminal⟩ := List.mem_filter.mp ((List.mem_insertionSort _).mp sorted)
  exact ⟨row, rowMember, rfl, terminal⟩

theorem isExpiredTerminal_status {cutoff : Time} {row : OutboxEvent}
    (terminal : row.isExpiredTerminal cutoff = true) : row.status ≠ .pending := by
  intro pending
  simp [OutboxEvent.isExpiredTerminal, pending] at terminal

end Doorito.Common
