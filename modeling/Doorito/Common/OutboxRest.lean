import Doorito.Common.DueEvents
import Doorito.Foundation.Exhaustion

/-! When the outbox comes to rest. A waiting event is never due later than the longest delay
from now. A run that begins so much later finds every event due that is PENDING, so the runs
are rounds that take an attempt each from as many events as the batch size allows. -/

set_option autoImplicit false

namespace Doorito.Common

open Foundation

/-- The longest delay after an attempt: one hour and a tenth of it. -/
def longestDelay : Time := seconds 3960

/-- A PENDING row is due no later than the longest delay from now, and has not used the five
attempts that every event is given. -/
structure OutboxEvent.WaitsWithin (row : OutboxEvent) (clock : Time) : Prop where
  due : row.status = .pending → ∃ due, row.nextAttemptAt = some due ∧ due ≤ clock + longestDelay
  attempts : row.maxAttempts = 5

def WaitsWithin (world : Clocked Serial Time) : Prop :=
  ∀ pk row, world.state.events.get? pk = some row → row.WaitsWithin world.clock

/-- A run begins so late that all delays have passed. -/
def RunsRested (world : Clocked Serial Time) : Operation → Prop
  | .processPendingEvents input => world.clock + longestDelay ≤ input.fetchedAt
  | .emitEvent _ _ _ | .retryFailedEvents _ _ | .cleanupDeliveredEvents _ _ => True

/-- The keys of the PENDING rows. -/
def pendingKeys (events : EventTable) : List Uuid :=
  (events.rows.filter (·.status = .pending)).map (·.pk)

/-! ## The delays -/

theorem leastDelay_le (attempt : Nat) : leastDelay attempt ≤ seconds 3600 := by
  have capped : min (60 * 2 ^ (attempt - 1)) 3600 ≤ 3600 := Nat.min_le_right _ _
  have cast : ((min (60 * 2 ^ (attempt - 1)) 3600 : Nat) : Int) ≤ 3600 := by exact_mod_cast capped
  exact mul_le_mul_of_nonneg_right cast (by decide)

theorem OutboxEvent.WaitsWithin.later {row : OutboxEvent} {clock later : Time}
    (waits : row.WaitsWithin clock) (ordered : clock ≤ later) : row.WaitsWithin later := by
  refine ⟨?_, waits.attempts⟩
  intro waiting
  obtain ⟨due, set, within⟩ := waits.due waiting
  exact ⟨due, set, within.trans (add_le_add_left ordered _)⟩

/-- A row that is due at once. -/
theorem OutboxEvent.WaitsWithin.of_now {row : OutboxEvent} {clock : Time}
    (set : row.nextAttemptAt = some clock) (attempts : row.maxAttempts = 5) :
    row.WaitsWithin clock :=
  ⟨fun _ => ⟨clock, set, le_add_of_nonneg_right (by decide)⟩, attempts⟩

theorem recorded_waitsWithin {input : RunInput} {event : OutboxEvent} {clock : Time}
    (waits : event.WaitsWithin clock) :
    (input.recorded event event).WaitsWithin input.updatedAt := by
  refine ⟨?_, waits.attempts⟩
  intro waiting
  obtain ⟨due, set, _, most⟩ := applyResult_due waiting
  have capped := leastDelay_le (event.attempts + 1)
  refine ⟨due, set, ?_⟩
  simp only [longestDelay, seconds] at capped ⊢
  linarith

/-- Each operation leaves a row as it was, makes it due at once, or delays it. -/
theorem WaitsWithin.step {world next : Clocked Serial Time} {operation : Operation}
    (waits : WaitsWithin world) (stepped : clockedOutbox.step world operation = some next) :
    WaitsWithin next := by
  intro pk row found
  have ordered := Machine.clock_le_of_step stepped
  obtain ⟨_, _, whole, clock⟩ := Machine.clocked_step_eq_some_iff.mp stepped
  simp only [serialOutbox] at whole
  cases operation with
  | emitEvent now key arguments =>
      simp only [Serial.step] at whole
      split_ifs at whole
      split at whole
      · rename_i events emitted
        rw [← Option.some.inj whole] at found
        by_cases same : key = pk
        · obtain ⟨member, is⟩ := Table.get?_eq_some_iff.mp found
          have rows := emitEvent_rows emitted
          have listed : arguments.event now key ∈ events.rows := by simp [rows]
          obtain rfl := Table.eq_of_key_eq member listed (is.trans same.symm)
          rw [clock]
          exact .of_now rfl rfl
        · rw [get?_emitEvent_of_ne emitted same] at found
          exact (waits pk row found).later ordered
      · rw [← Option.some.inj whole] at found
        exact (waits pk row found).later ordered
  | processPendingEvents input =>
      obtain ⟨events, _, _⟩ := Serial.step_processPendingEvents whole
      rw [events] at found
      rcases get?_processPendingEvents_due input world.state.events pk with
        same | ⟨event, _, stored, recorded⟩
      · rw [same] at found
        exact (waits pk row found).later ordered
      · obtain rfl := Option.some.inj (recorded.symm.trans found)
        rw [clock]
        exact recorded_waitsWithin (waits pk event stored)
  | retryFailedEvents now selected =>
      rw [← Option.some.inj whole] at found
      simp only [retryFailedEvents, Table.get?_updateWhere, Option.map_eq_some_iff] at found
      obtain ⟨stored, before, changed⟩ := found
      split_ifs at changed
      · rw [← changed, clock]
        exact .of_now rfl (waits pk stored before).attempts
      · rw [← changed]
        exact (waits pk stored before).later ordered
  | cleanupDeliveredEvents now retentionHours =>
      rw [← Option.some.inj whole] at found
      rcases get?_cleanupDeliveredEvents pk now retentionHours world.state.events with
        same | gone
      · rw [same] at found
        exact (waits pk row found).later ordered
      · rw [gone] at found
        cases found

section Round

variable {world next : Clocked Serial Time} {keys : List Uuid}

theorem budget_pos_iff {pk : Uuid} {events : EventTable} :
    0 < budget pk events ↔ ∃ row, events.get? pk = some row ∧ row.status = .pending := by
  unfold budget
  cases events.get? pk with
  | none => simp
  | some row => by_cases waiting : row.status = .pending <;> simp [waiting]

theorem mem_pendingKeys {pk : Uuid} {events : EventTable} :
    pk ∈ pendingKeys events ↔ 0 < budget pk events := by
  simp only [pendingKeys, budget_pos_iff, List.mem_map, List.mem_filter, decide_eq_true_iff]
  constructor
  · intro listed
    obtain ⟨row, ⟨member, waiting⟩, rfl⟩ := listed
    exact ⟨row, Table.get?_of_mem member, waiting⟩
  · intro stored
    obtain ⟨row, found, waiting⟩ := stored
    obtain ⟨member, key⟩ := Table.get?_eq_some_iff.mp found
    exact ⟨row, ⟨member, waiting⟩, key⟩

theorem pendingKeys_nodup (events : EventTable) : (pendingKeys events).Nodup :=
  events.unique.sublist (List.filter_sublist.map _)

/-- After the longest delay every PENDING row is due. -/
theorem WaitsWithin.count_due (waits : WaitsWithin world) {time : Time}
    (rested : world.clock + longestDelay ≤ time) :
    world.state.events.count (·.isDue time) = (pendingKeys world.state.events).length := by
  rw [pendingKeys, List.length_map, ← List.countP_eq_length_filter, Table.count]
  refine List.countP_congr fun row member => ?_
  rw [isDue_iff, decide_eq_true_iff]
  constructor
  · exact And.left
  · intro waiting
    obtain ⟨due, set, within⟩ := (waits row.pk row (Table.get?_of_mem member)).due waiting
    exact ⟨waiting, due, set, within.trans rested⟩

/-- A rested run takes an attempt from as many events as its batch size allows. -/
theorem WaitsWithin.round (waits : WaitsWithin world) {input : RunInput} (calm : input.Calm)
    (taken : input.ResultsTaken (input.batch world.state.events))
    (rested : world.clock + longestDelay ≤ input.fetchedAt) (distinct : keys.Nodup)
    (covers : ∀ pk, 0 < budget pk world.state.events → pk ∈ keys)
    (stepped : clockedOutbox.step world (.processPendingEvents input) = some next) :
    Round input.batchSize keys (budget · world.state.events) (budget · next.state.events)
      (RunRecord.attempted ⟨input, world.state.events⟩) := by
  let record : RunRecord := ⟨input, world.state.events⟩
  have through : record.GetsThrough := ⟨calm, taken⟩
  obtain ⟨events, _, _⟩ := Serial.step_processPendingEvents (Machine.step_of_clocked stepped)
  have spends (pk : Uuid) : budget pk next.state.events + (if record.counted pk then 1 else 0) ≤
      budget pk world.state.events := by
    rw [events]
    exact budget_processPendingEvents pk record
  refine ⟨attempted_nodup through.calm, ?_, ?_, ?_, ?_⟩
  · intro pk attempted
    have spent := spends pk
    rw [if_pos ((counted_iff_attempted through).mpr attempted)] at spent
    have left : 0 < budget pk world.state.events := by omega
    exact ⟨covers pk left, left⟩
  · -- The keys that have attempts left are those of the due rows.
    have perm : (pendingKeys world.state.events).Perm
        (keys.filter fun pk => 0 < budget pk world.state.events) := by
      rw [List.perm_ext_iff_of_nodup (pendingKeys_nodup _) (distinct.filter _)]
      intro pk
      rw [mem_pendingKeys, List.mem_filter, decide_eq_true_iff]
      exact ⟨fun left => ⟨covers pk left, left⟩, And.right⟩
    have fetched : FetchesDue input world.state.events (input.batch world.state.events) :=
      fetchesDue_batch
    rw [attempted_eq through.calm, List.length_map, List.countP_eq_length_filter,
      ← perm.length_eq, ← waits.count_due rested]
    exact fetched.size
  · intro pk
    exact Nat.le_of_add_right_le (spends pk)
  · intro pk attempted
    have spent := spends pk
    rw [if_pos ((counted_iff_attempted through).mpr attempted)] at spent
    omega

theorem budget_cleanupDeliveredEvents (pk : Uuid) (now : Time) (retentionHours : Int)
    (events : EventTable) :
    budget pk (cleanupDeliveredEvents now retentionHours events).1 = budget pk events := by
  by_cases left : 0 < budget pk events
  · obtain ⟨row, found, waiting⟩ := budget_pos_iff.mp left
    apply budget_of_get?_eq
    rw [get?_cleanupDeliveredEvents_of_pending found waiting, found]
  · have spent : budget pk events = 0 := Nat.eq_zero_of_not_pos left
    rcases get?_cleanupDeliveredEvents pk now retentionHours events with same | gone
    · exact budget_of_get?_eq same
    · rw [spent, budget, gone]

end Round

/-! ## All runs -/

theorem WaitsWithin.rounds {batchSize : Nat} {world final : Clocked Serial Time}
    {keys : List Uuid} {operations : List Operation} (waits : WaitsWithin world)
    (distinct : keys.Nodup) (covers : ∀ pk, 0 < budget pk world.state.events → pk ∈ keys)
    (kept : ∀ operation ∈ operations, operation.KeepsDueSet batchSize)
    (rested : clockedOutbox.Meets RunsRested world operations)
    (taken : clockedOutbox.Meets RecordsResults world operations)
    (ran : clockedOutbox.run world operations = some final) :
    Rounds batchSize keys (budget · world.state.events) (fetchTimes operations).length
      (budget · final.state.events) := by
  induction operations generalizing world with
  | nil =>
      cases ran
      exact .none
  | cons operation rest ih =>
      obtain ⟨next, stepped, ranRest⟩ := clockedOutbox.run_cons_eq_some_iff.mp ran
      obtain ⟨here, later⟩ := rested next stepped
      obtain ⟨takenHere, takenLater⟩ := taken next stepped
      rw [List.forall_mem_cons] at kept
      have waitsNext := waits.step stepped
      cases operation with
      | processPendingEvents input =>
          obtain ⟨⟨rfl, calm⟩, kept⟩ := kept
          have round := waits.round calm takenHere here distinct covers stepped
          refine .one round (ih waitsNext ?_ kept later takenLater ranRest)
          intro pk left
          exact covers pk (left.trans_le (round.gains pk))
      | cleanupDeliveredEvents now retentionHours =>
          have same (pk : Uuid) : budget pk next.state.events = budget pk world.state.events := by
            rw [← Option.some.inj (Machine.step_of_clocked stepped)]
            exact budget_cleanupDeliveredEvents pk now retentionHours _
          have rounds := ih waitsNext (fun pk left => covers pk (same pk ▸ left)) kept.2 later
            takenLater ranRest
          simp only [same] at rounds
          exact rounds
      | emitEvent now key arguments => exact kept.1.elim
      | retryFailedEvents now selected => exact kept.1.elim

namespace Sample

end Sample

end Doorito.Common
