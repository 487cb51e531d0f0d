import Doorito.Common.UpdateProperties

/-! What one delivery run leaves behind. Phases 2 and 3 either map every row of a
finished event to the row with its result, or, if an exception other than the soft time
limit, a missing row or a result that the database refuses is met, change nothing at all. -/

set_option autoImplicit false

namespace Doorito.Common

open Foundation

namespace RunInput

variable (input : RunInput)

def raises (event : OutboxEvent) : Option Raised :=
  raisedBy input.http (activeEndpoints input.endpoints) event

def finished (batch : List OutboxEvent) : List OutboxEvent :=
  finishedEvents input.http (activeEndpoints input.endpoints) batch

def result (event : OutboxEvent) : EventResult :=
  resultOf input.http (activeEndpoints input.endpoints) event

/-- The object that phase 3 saves for the event. -/
def applied (event : OutboxEvent) : OutboxEvent :=
  applyResult input.updatedAt (input.random event.pk) (input.result event) event

def recorded (event row : OutboxEvent) : OutboxEvent :=
  (input.applied event).saveOnto input.updatedAt row

/-- The first exception of the batch, if there is one, is the soft time limit. -/
def StopsSoftly (batch : List OutboxEvent) : Prop :=
  ∀ raised, batch.findSome? input.raises = some raised → raised = .softTimeLimitExceeded

/-- The database takes what the run records of the finished events. -/
def ResultsTaken (batch : List OutboxEvent) : Prop :=
  ∀ event ∈ input.finished batch, input.refuses (input.applied event) = false

instance (batch : List OutboxEvent) : Decidable (input.ResultsTaken batch) :=
  inferInstanceAs
    (Decidable (∀ event ∈ input.finished batch, input.refuses (input.applied event) = false))

/-- Nothing keeps the run from committing its phase 3. -/
structure CanCommit (batch : List OutboxEvent) (events : EventTable) : Prop where
  softly : input.StopsSoftly batch
  present : ∀ event ∈ input.finished batch, event.pk ∈ events.keys
  taken : input.ResultsTaken batch

@[simp] theorem pk_applied (event : OutboxEvent) : (input.applied event).pk = event.pk :=
  applyResult_pk ..

@[simp] theorem pk_recorded (event row : OutboxEvent) :
    (input.recorded event row).pk = row.pk := rfl

@[simp] theorem attempts_recorded (event row : OutboxEvent) :
    (input.recorded event row).attempts = event.attempts + 1 := by
  simp [recorded, applied]

theorem batch_nodup (events : EventTable) : ((input.batch events).map (·.pk)).Nodup :=
  fetchPending_nodup

end RunInput

/-! ## What PostgreSQL takes -/

theorem mem_toList_intercalate {separator : String} {texts : List String} {character : Char}
    (apart : character ∉ separator.toList) :
    character ∈ (separator.intercalate texts).toList ↔
      ∃ text ∈ texts, character ∈ text.toList := by
  induction texts with
  | nil => simp
  | cons text rest ih =>
      cases rest with
      | nil => simp
      | cons next rest =>
          rw [String.intercalate_cons_cons]
          simp only [String.toList_append, List.mem_append, ih, apart, or_false]
          simp

theorem postgresRefuses_eq_false_iff {object : OutboxEvent} :
    postgresRefuses object = false ↔
      Char.ofNat 0 ∉ object.errorMessage.toList ∧ object.attempts ≤ positiveIntegerMax := by
  simp [postgresRefuses, List.forall_mem_ne']

/-- An event without failures has no error text, like the object that is saved for it. -/
theorem errorMessage_applied (input : RunInput) (event : OutboxEvent) :
    (input.applied event).errorMessage = (input.result event).error := by
  have joined : (input.result event).allOk = true → (input.result event).error = "" := by
    intro ok
    have none : ((answers input.http (activeEndpoints input.endpoints) event).filterMap
        failureText) = [] := List.length_eq_zero_iff.mp (of_decide_eq_true ok)
    simp [RunInput.result, resultOf, Answers.result, none, collectErrors]
  rcases applyResult_cases input.updatedAt (input.random event.pk) (input.result event) event with
    ⟨ok, _, _, _, text⟩ | ⟨_, _, _, _, _, text⟩ | ⟨_, _, _, _, _, text⟩
  · exact text.trans (joined ok).symm
  · exact text
  · exact text

/-- What PostgreSQL takes, read off the events and the answers to their requests. -/
theorem resultsTaken_postgres_iff {input : RunInput} {batch : List OutboxEvent}
    (postgres : input.refuses = postgresRefuses) :
    input.ResultsTaken batch ↔ ∀ event ∈ input.finished batch,
      event.attempts < positiveIntegerMax ∧
        ∀ answer ∈ answers input.http (activeEndpoints input.endpoints) event,
          ∀ text ∈ failureText answer, Char.ofNat 0 ∉ text.toList := by
  refine forall₂_congr fun event _ => ?_
  have nullWithin : Char.ofNat 0 ∈ (input.result event).error.toList ↔
      ∃ text ∈ (answers input.http (activeEndpoints input.endpoints) event).filterMap failureText,
        Char.ofNat 0 ∈ text.toList := mem_toList_intercalate (by decide)
  rw [postgres, postgresRefuses_eq_false_iff, errorMessage_applied, nullWithin, And.comm,
    RunInput.applied, applyResult_attempts]
  refine and_congr Iff.rfl ?_
  simp only [List.mem_filterMap, not_exists, not_and]
  constructor
  · intro none answer member text failed
    exact none text ⟨answer, member, failed⟩
  · intro none text listed
    obtain ⟨answer, member, failed⟩ := listed
    exact none answer member text failed

/-! ## Phases 2 and 3 in closed form -/

section Run

variable {input : RunInput} {batch : List OutboxEvent} {events : EventTable}

theorem delivery_results :
    (input.delivery batch).results =
      (input.finished batch).map fun event => (event.pk, input.result event) :=
  deliverEvents_results _ _ _

theorem delivery_stopped :
    (input.delivery batch).stopped = batch.findSome? input.raises :=
  deliverEvents_stopped _ _ _

theorem finished_subset : input.finished batch ⊆ batch :=
  (finishedEvents_sublist _ _ _).subset

theorem delivery_caught_of_stopsSoftly (softly : input.StopsSoftly batch) :
    (input.delivery batch).caught = .ok (input.delivery batch).results := by
  unfold Delivery.caught
  rw [delivery_stopped]
  cases first : batch.findSome? input.raises with
  | none => rfl
  | some raised =>
      obtain rfl := softly raised first
      rfl

theorem delivery_caught_of_not_stopsSoftly (left : ¬ input.StopsSoftly batch) :
    ∃ raised, (input.delivery batch).caught = .error raised := by
  unfold RunInput.StopsSoftly at left
  push Not at left
  obtain ⟨raised, first, other⟩ := left
  unfold Delivery.caught
  rw [delivery_stopped, first]
  cases raised with
  | softTimeLimitExceeded => exact absurd rfl other
  | typeError => exact ⟨_, rfl⟩
  | other name => exact ⟨_, rfl⟩

variable (distinct : (batch.map (·.pk)).Nodup)

include distinct in
theorem lookup_delivery_results {event : OutboxEvent} (member : event ∈ batch) :
    ((input.delivery batch).results.lookup event.pk ≠ none ↔ event ∈ input.finished batch) ∧
      (event ∈ input.finished batch →
        (input.delivery batch).results.lookup event.pk = some (input.result event)) := by
  have found : event ∈ input.finished batch →
      (input.delivery batch).results.lookup event.pk = some (input.result event) :=
    lookup_results_of_finished distinct
  refine ⟨⟨?_, ?_⟩, found⟩
  · intro present
    by_contra unfinished
    exact present (lookup_results_of_unfinished distinct member unfinished)
  · intro finished
    rw [found finished]
    exact Option.some_ne_none _

include distinct in
theorem canCommit_of_updated {progress : Progress} (softly : input.StopsSoftly batch)
    (updated : updateEvents input.updatedAt input.random input.refuses
      (input.delivery batch).results batch ⟨events, 0, 0⟩ = .ok progress) :
    input.CanCommit batch events := by
  have can : ∀ event ∈ input.finished batch,
      CanSave input.refuses events (input.applied event) := by
    intro event done
    have member := finished_subset done
    exact updateEvents_ok_iff.mp ⟨progress, updated⟩ event member _
      ((lookup_delivery_results distinct member).2 done)
  refine ⟨softly, ?_, ?_⟩
  · exact fun event done => input.pk_applied event ▸ (can event done).present
  · exact fun event done => (can event done).taken

include distinct in
theorem updated_of_canCommit (can : input.CanCommit batch events) :
    ∃ progress, updateEvents input.updatedAt input.random input.refuses
      (input.delivery batch).results batch ⟨events, 0, 0⟩ = .ok progress := by
  refine updateEvents_ok_iff.mpr ?_
  intro event member result found
  have done : event ∈ input.finished batch :=
    (lookup_delivery_results distinct member).1.mp (by simp [found])
  have own := (lookup_delivery_results distinct member).2 done
  obtain rfl : input.result event = result := Option.some.inj (own.symm.trans found)
  exact ⟨(input.pk_applied event).symm ▸ can.present event done, can.taken event done⟩

include distinct in
theorem deliverAndUpdate_of_canCommit (can : input.CanCommit batch events) :
    ∃ summary, (deliverAndUpdate input batch events).returned = .ok summary ∧
      (deliverAndUpdate input batch events).events.rows = events.rows.map
        (updateRow input.updatedAt input.random (input.delivery batch).results batch) ∧
      summary.processed = (input.finished batch).length ∧
      summary.delivered = batch.countP (fun event =>
        branchOf (input.delivery batch).results event = some .delivered) ∧
      summary.failed = batch.countP (fun event =>
        branchOf (input.delivery batch).results event = some .failed) ∧
      summary.remaining = pendingCount (deliverAndUpdate input batch events).events := by
  obtain ⟨progress, updated⟩ := updated_of_canCommit distinct can
  have shape : deliverAndUpdate input batch events =
      ⟨progress.events, (input.delivery batch).posts, .ok
        ⟨(input.delivery batch).results.length, progress.deliveredCount, progress.failedCount,
          pendingCount progress.events⟩⟩ := by
    simp only [deliverAndUpdate, delivery_caught_of_stopsSoftly can.softly, updated]
  obtain ⟨delivered, failed⟩ := updateEvents_counts updated
  rw [shape]
  refine ⟨_, rfl, updateEvents_rows updated, ?_, ?_, ?_, rfl⟩
  · simp [delivery_results]
  · simpa using delivered
  · simpa using failed

include distinct in
theorem deliverAndUpdate_of_not_canCommit (cannot : ¬ input.CanCommit batch events) :
    (deliverAndUpdate input batch events).events = events ∧
      ∃ error, (deliverAndUpdate input batch events).returned = .error error := by
  unfold deliverAndUpdate
  by_cases softly : input.StopsSoftly batch
  · simp only [delivery_caught_of_stopsSoftly softly]
    cases updated : updateEvents input.updatedAt input.random input.refuses
        (input.delivery batch).results batch ⟨events, 0, 0⟩ with
    | error error => exact ⟨rfl, _, rfl⟩
    | ok progress => exact absurd (canCommit_of_updated distinct softly updated) cannot
  · obtain ⟨raised, caught⟩ := delivery_caught_of_not_stopsSoftly softly
    simp only [caught]
    exact ⟨trivial, _, rfl⟩

include distinct in
/-- The run returns exactly if it commits. -/
theorem returned_ok_iff :
    (∃ summary, (deliverAndUpdate input batch events).returned = .ok summary) ↔
      input.CanCommit batch events := by
  constructor
  · intro succeeded
    obtain ⟨summary, returned⟩ := succeeded
    by_contra cannot
    obtain ⟨_, error, failed⟩ := deliverAndUpdate_of_not_canCommit distinct cannot
    rw [failed] at returned
    cases returned
  · intro can
    obtain ⟨summary, returned, _⟩ := deliverAndUpdate_of_canCommit distinct can
    exact ⟨summary, returned⟩

theorem deliverAndUpdate_posts :
    (deliverAndUpdate input batch events).posts = (input.delivery batch).posts := by
  simp only [deliverAndUpdate]
  cases (input.delivery batch).caught with
  | error raised => rfl
  | ok results =>
      cases updated : updateEvents input.updatedAt input.random input.refuses results batch
          ⟨events, 0, 0⟩ <;>
        simp only [updated]

include distinct in
theorem updateRow_of_finished {event row : OutboxEvent}
    (finished : event ∈ input.finished batch) (key : row.pk = event.pk) :
    updateRow input.updatedAt input.random (input.delivery batch).results batch row =
      input.recorded event row :=
  updateRow_of_mem distinct (finished_subset finished)
    ((lookup_delivery_results distinct (finished_subset finished)).2 finished) key

include distinct in
theorem updateRow_of_unfinished {row : OutboxEvent}
    (unfinished : ∀ event ∈ input.finished batch, event.pk ≠ row.pk) :
    updateRow input.updatedAt input.random (input.delivery batch).results batch row = row := by
  refine updateRow_of_unsaved ?_
  intro event member key
  by_contra found
  exact unfinished event ((lookup_delivery_results distinct member).1.mp found) key

end Run

theorem processPendingEvents_eq (input : RunInput) (events : EventTable) :
    processPendingEvents input events = deliverAndUpdate input (input.batch events) events := by
  unfold processPendingEvents
  cases batch : input.batch events with
  | nil => rfl
  | cons event rest => rfl

section Found

variable {input : RunInput} {events : EventTable}

theorem mem_rows_of_finished {event : OutboxEvent}
    (done : event ∈ input.finished (input.batch events)) :
    event ∈ events.rows ∧ event.status = .pending := by
  obtain ⟨row, due, _⟩ := mem_fetchPending (finished_subset done)
  exact ⟨row, (isDue_iff.mp due).1⟩

/-- A run finds the rows of its batch as it has read them. -/
theorem canCommit_iff_of_stopsSoftly (softly : input.StopsSoftly (input.batch events)) :
    input.CanCommit (input.batch events) events ↔ input.ResultsTaken (input.batch events) := by
  constructor
  · exact RunInput.CanCommit.taken
  · intro taken
    exact ⟨softly, fun event done => Table.mem_keys_of_mem (mem_rows_of_finished done).1, taken⟩

end Found

/-! ## Isolation of the events of a batch -/

section Isolation

variable (input : RunInput) (batch : List OutboxEvent) (events : EventTable)

/-- The loop has reached the event, and all of its requests have ended. -/
def Sent (event : OutboxEvent) : Prop :=
  ∃ before after matching, batch = before ++ event :: after ∧
    (∀ other ∈ before, input.raises other = none) ∧
    PostsFinished input.http (activeEndpoints input.endpoints) event matching

/-- Phase 3 saves the result of the event in the transaction that it commits. -/
def Writes (event : OutboxEvent) : Prop :=
  ∃ results progress, (input.delivery batch).caught = .ok results ∧
    results.lookup event.pk = some (input.result event) ∧
    updateEvents input.updatedAt input.random input.refuses results batch ⟨events, 0, 0⟩ =
      .ok progress

/-- Every event whose requests have ended, and whose row is left when phase 3 begins, gets its
own result, whatever has become of the row. -/
def Isolated : Prop :=
  ∀ event, Sent input batch event → ∀ row ∈ events.rows, row.pk = event.pk →
    Writes input batch events event ∧
      input.recorded event row ∈ (deliverAndUpdate input batch events).events.rows

/-- No exception other than the soft time limit is met first, every finished event still
has its row, the database takes all their results, and no signal separates the last answer to
a sent event from its result. -/
structure KeepsResults : Prop extends input.CanCommit batch events where
  stored : ∀ event, Sent input batch event → event.pk ∈ events.keys → input.raises event = none

variable {input batch events}

theorem mem_finished_of_sent {event : OutboxEvent} (sent : Sent input batch event)
    (body : input.raises event = none) : event ∈ input.finished batch := by
  obtain ⟨before, after, _, rfl, finished, _⟩ := sent
  have all : ∀ other ∈ before,
      (raisedBy input.http (activeEndpoints input.endpoints) other).isNone = true := by
    intro other member
    rw [Option.isNone_iff_eq_none]
    exact finished other member
  have here : (raisedBy input.http (activeEndpoints input.endpoints) event).isNone = true :=
    Option.isNone_iff_eq_none.mpr body
  rw [RunInput.finished, finishedEvents, List.takeWhile_append_of_pos all]
  simp [here]

theorem mem_of_sent {event : OutboxEvent} (sent : Sent input batch event) : event ∈ batch := by
  obtain ⟨_, _, _, rfl, _⟩ := sent
  exact List.mem_append_right _ List.mem_cons_self

/-- A run writes the results of the events that it has finished, if it can commit. -/
theorem writes_iff (distinct : (batch.map (·.pk)).Nodup) {event : OutboxEvent}
    (member : event ∈ batch) :
    Writes input batch events event ↔
      input.CanCommit batch events ∧ event ∈ input.finished batch := by
  constructor
  · intro writes
    obtain ⟨results, progress, caught, found, updated⟩ := writes
    have softly : input.StopsSoftly batch := by
      by_contra left
      obtain ⟨raised, failed⟩ := delivery_caught_of_not_stopsSoftly left
      rw [caught] at failed
      cases failed
    rw [delivery_caught_of_stopsSoftly softly, Except.ok.injEq] at caught
    subst caught
    refine ⟨canCommit_of_updated distinct softly updated, ?_⟩
    exact (lookup_delivery_results distinct member).1.mp (by simp [found])
  · intro both
    obtain ⟨can, done⟩ := both
    obtain ⟨progress, updated⟩ := updated_of_canCommit distinct can
    exact ⟨_, progress, delivery_caught_of_stopsSoftly can.softly,
      (lookup_delivery_results distinct member).2 done, updated⟩

theorem isolated_of_keepsResults (distinct : (batch.map (·.pk)).Nodup)
    (keeps : KeepsResults input batch events) : Isolated input batch events := by
  intro event sent row member key
  obtain ⟨_, _, rows, _⟩ := deliverAndUpdate_of_canCommit distinct keeps.toCanCommit
  have left : event.pk ∈ events.keys := key ▸ Table.mem_keys_of_mem member
  have done := mem_finished_of_sent sent (keeps.stored event sent left)
  refine ⟨(writes_iff distinct (mem_of_sent sent)).mpr ⟨keeps.toCanCommit, done⟩, ?_⟩
  rw [rows, List.mem_map]
  exact ⟨row, member, updateRow_of_finished distinct done key⟩

/-- A run that isolates an event whose row is left has kept its results: had it lost them,
this event would have lost its own. -/
theorem keepsResults_of_isolated (distinct : (batch.map (·.pk)).Nodup)
    (isolated : Isolated input batch events) {event : OutboxEvent}
    (sent : Sent input batch event) (left : event.pk ∈ events.keys) :
    KeepsResults input batch events := by
  have writes : ∀ other, Sent input batch other → other.pk ∈ events.keys →
      input.CanCommit batch events ∧ other ∈ input.finished batch := by
    intro other otherSent otherLeft
    obtain ⟨row, member, key⟩ := List.mem_map.mp otherLeft
    exact (writes_iff distinct (mem_of_sent otherSent)).mp
      (isolated other otherSent row member key).1
  refine ⟨(writes event sent left).1, ?_⟩
  intro other otherSent otherLeft
  exact raisedBy_of_mem_finishedEvents _ _ (writes other otherSent otherLeft).2

/-- For every batch that a run has fetched, and for every table that it finds in phase 3:
the events of the batch are isolated from each other exactly if none of them that was
sent has its row left, or the run keeps its results. -/
theorem isolated_iff (found events : EventTable) :
    Isolated input (input.batch found) events ↔
      (∀ event, Sent input (input.batch found) event → event.pk ∉ events.keys) ∨
        KeepsResults input (input.batch found) events := by
  have distinct := input.batch_nodup found
  constructor
  · intro isolated
    by_cases none : ∀ event, Sent input (input.batch found) event → event.pk ∉ events.keys
    · exact .inl none
    · push Not at none
      obtain ⟨event, sent, left⟩ := none
      exact .inr (keepsResults_of_isolated distinct isolated sent left)
  · intro conditions
    rcases conditions with none | keeps
    · intro event sent row member key
      exact absurd (key ▸ Table.mem_keys_of_mem member) (none event sent)
    · exact isolated_of_keepsResults distinct keeps

end Isolation

/-- The first event of this batch is delivered, and then the request for the second one
raises an exception that the delivery does not catch. -/
theorem isolation_fails_invalidUrl :
    ¬ ∀ (input : RunInput) (found events : EventTable),
      Isolated input (input.batch found) events := by
  intro isolated
  have sent : Sent Sample.invalidUrlRun (Sample.invalidUrlRun.batch Sample.twoEvents)
      Sample.event :=
    ⟨[], [Sample.expiringEvent], [Sample.subscriber Sample.endpoint "file.stored"], rfl, by simp,
      rfl, rfl, by
        intro endpoint member
        obtain rfl := List.mem_singleton.mp member
        exact ⟨_, rfl⟩⟩
  have untouched : ∀ row ∈ (deliverAndUpdate Sample.invalidUrlRun
      (Sample.invalidUrlRun.batch Sample.twoEvents) Sample.twoEvents).events.rows,
      row.attempts = 0 := by decide
  have counted := untouched _ (isolated Sample.invalidUrlRun Sample.twoEvents Sample.twoEvents
    Sample.event sent _ List.mem_cons_self rfl).2
  rw [RunInput.attempts_recorded] at counted
  cases counted

end Doorito.Common
