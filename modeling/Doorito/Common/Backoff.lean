import Doorito.Common.DeliverySpec
import Doorito.Common.RetryBudget
import Doorito.Foundation.Clocked
import Mathlib.Algebra.BigOperators.Intervals
import Mathlib.Algebra.Order.BigOperators.Group.Finset

/-! When an event is sent again. Every time that an event is waiting for is a bound on the
clock: it has passed, or the event is PENDING and not due before it. A recorded attempt
sets such a bound, and no operation takes one back. -/

set_option autoImplicit false

namespace Doorito.Common

open Foundation

def Operation.begins : Operation → Time
  | .processPendingEvents input => input.fetchedAt
  | .emitEvent now _ _ | .retryFailedEvents now _ | .cleanupDeliveredEvents now _ => now

def Operation.ends : Operation → Time
  | .processPendingEvents input => input.updatedAt
  | .emitEvent now _ _ | .retryFailedEvents now _ | .cleanupDeliveredEvents now _ => now

/-- Whole operations at non-decreasing times. -/
def clockedOutbox : Machine (Clocked Serial Time) Operation :=
  serialOutbox.clocked Operation.begins Operation.ends

/-- The event is PENDING and has no attempt, as an emission and a reset leave it. -/
def Renewed (pk : Uuid) (state : Serial) : Prop :=
  ∃ row ∈ state.events.rows, row.pk = pk ∧ row.status = .pending ∧ row.attempts = 0

/-- The number of attempts that the runs recorded for the event. -/
def recordedAttempts (pk : Uuid) (runs : List RunRecord) : Nat := runs.countP (·.counted pk)

/-- The least time between the attempt with a number and the next one. -/
def leastDelay (attempt : Nat) : Time :=
  seconds (min (60 * 2 ^ (attempt - 1)) 3600 : Nat)

/-- The least time that the delays after the first attempts add up to. -/
def leastTotalDelay (attempts : Nat) : Time :=
  ∑ attempt ∈ Finset.Icc 1 attempts, leastDelay attempt

def PostedFrom (pk : Uuid) (bound : Time) (runs : List RunRecord) : Prop :=
  ∀ record ∈ runs, ∀ endpoint, record.posted pk endpoint = true →
    bound ≤ record.input.fetchedAt

theorem leastDelay_nonneg (attempt : Nat) : 0 ≤ leastDelay attempt := by
  unfold leastDelay seconds
  positivity

theorem leastTotalDelay_succ (attempts : Nat) :
    leastTotalDelay (attempts + 1) = leastTotalDelay attempts + leastDelay (attempts + 1) :=
  Finset.sum_Icc_succ_top (Nat.le_add_left 1 attempts) leastDelay

theorem leastTotalDelay_mono {fewer more : Nat} (fewerLe : fewer ≤ more) :
    leastTotalDelay fewer ≤ leastTotalDelay more :=
  Finset.sum_le_sum_of_subset_of_nonneg (Finset.Icc_subset_Icc_right fewerLe)
    fun attempt _ _ => leastDelay_nonneg attempt

/-! ## One operation -/

/-- The time has come, or the event is PENDING and not due before it. -/
def Postponed (pk : Uuid) (bound : Time) (world : Clocked Serial Time) : Prop :=
  bound ≤ world.clock ∨ ∃ row, world.state.events.get? pk = some row ∧
    row.status = .pending ∧ ∀ due, row.nextAttemptAt = some due → bound ≤ due

section Step

variable {pk : Uuid} {bound : Time} {world next : Clocked Serial Time} {operation : Operation}

theorem Postponed.le_fetchedAt (postponed : Postponed pk bound world) {input : RunInput}
    (ordered : world.clock ≤ input.fetchedAt) {event : OutboxEvent}
    (found : world.state.events.get? pk = some event)
    (due : event.isDue input.fetchedAt = true) : bound ≤ input.fetchedAt := by
  rcases postponed with passed | ⟨row, same, _, waits⟩
  · exact passed.trans ordered
  · obtain rfl : event = row := Option.some.inj (found.symm.trans same)
    obtain ⟨_, time, is, reached⟩ := isDue_iff.mp due
    exact (waits time is).trans reached

theorem Postponed.of_due {row : OutboxEvent} {time : Time}
    (found : world.state.events.get? pk = some row) (waiting : row.status = .pending)
    (set : row.nextAttemptAt = some time) (least : bound ≤ time) : Postponed pk bound world := by
  refine .inr ⟨row, found, waiting, ?_⟩
  intro due dueSet
  obtain rfl : time = due := Option.some.inj (set.symm.trans dueSet)
  exact least

theorem Postponed.of_get?_eq (postponed : Postponed pk bound world)
    (same : next.state.events.get? pk = world.state.events.get? pk)
    (ordered : world.clock ≤ next.clock) : Postponed pk bound next := by
  rcases postponed with passed | waiting
  · exact .inl (passed.trans ordered)
  · right
    rwa [same]

/-- Only a run changes a PENDING event, and the event was due when the run began. -/
theorem step_of_waiting {row : OutboxEvent} (issued : pk ∈ world.state.issued)
    (found : world.state.events.get? pk = some row) (waiting : row.status = .pending)
    (stepped : serialOutbox.step world.state operation = some next.state) :
    next.state.events.get? pk = some row ∨
      ∃ input, operation = .processPendingEvents input ∧ row.isDue input.fetchedAt = true := by
  have noReset : NoReset pk world.state operation := by
    cases operation with
    | retryFailedEvents now selected =>
        intro other member key failed
        obtain rfl : other = row :=
          Option.some.inj ((Table.get?_eq_some_iff.mpr ⟨member, key⟩).symm.trans found)
        rw [waiting] at failed
        cases failed
    | _ => trivial
  rcases (step_row_cases issued noReset stepped).2 with
    ⟨_, same | ⟨_, ended⟩⟩ | ⟨input, rfl, _, events⟩
  · exact .inl (same.trans found)
  · exact absurd waiting (ended row found)
  · rw [events]
    rcases get?_processPendingEvents_due input world.state.events pk with
      same | ⟨event, due, is, _⟩
    · exact .inl (same.trans found)
    · obtain rfl : row = event := Option.some.inj (found.symm.trans is)
      exact .inr ⟨input, rfl, due⟩

theorem step_postponed (issued : pk ∈ world.state.issued) (postponed : Postponed pk bound world)
    (stepped : clockedOutbox.step world operation = some next) : Postponed pk bound next := by
  have later := Machine.clock_le_of_step stepped
  rcases postponed with passed | ⟨row, found, waiting, waits⟩
  · exact .inl (passed.trans later)
  · have whole := Machine.step_of_clocked stepped
    rcases step_of_waiting issued found waiting whole with same | ⟨input, rfl, due⟩
    · exact .inr ⟨row, same, waiting, waits⟩
    · left
      obtain ⟨began, ended, _, clock⟩ := Machine.clocked_step_eq_some_iff.mp stepped
      have reached := Postponed.le_fetchedAt (.inr ⟨row, found, waiting, waits⟩) began found due
      rw [clock]
      exact reached.trans ended

theorem step_issued_subset (stepped : clockedOutbox.step world operation = some next) :
    world.state.issued ⊆ next.state.issued := by
  have whole := Machine.step_of_clocked stepped
  simp only [serialOutbox] at whole
  intro key member
  cases operation with
  | emitEvent now other arguments =>
      simp only [Serial.step] at whole
      split at whole
      · cases whole
      · split at whole <;> rw [← Option.some.inj whole]
        · exact List.mem_cons_of_mem _ member
        · exact member
  | processPendingEvents input =>
      rw [← Option.some.inj whole]
      exact member
  | retryFailedEvents now selected =>
      rw [← Option.some.inj whole]
      exact member
  | cleanupDeliveredEvents now retentionHours =>
      rw [← Option.some.inj whole]
      exact member

/-- The runs that an operation adds to the record. -/
theorem step_run_cases (stepped : clockedOutbox.step world operation = some next) :
    next.state.runs = world.state.runs ∨ ∃ input, operation = .processPendingEvents input ∧
      next.state.runs = world.state.runs ++ [⟨input, world.state.events⟩] := by
  have whole := Machine.step_of_clocked stepped
  simp only [serialOutbox] at whole
  cases operation with
  | emitEvent now key arguments =>
      left
      simp only [Serial.step] at whole
      split at whole
      · cases whole
      · split at whole <;> rw [← Option.some.inj whole]
  | processPendingEvents input =>
      right
      refine ⟨input, rfl, ?_⟩
      rw [← Option.some.inj whole]
  | retryFailedEvents now selected =>
      left
      rw [← Option.some.inj whole]
  | cleanupDeliveredEvents now retentionHours =>
      left
      rw [← Option.some.inj whole]

end Step

/-- The record of the runs only grows. -/
theorem runs_append_of_run {start final : Clocked Serial Time} {operations : List Operation}
    (ran : clockedOutbox.run start operations = some final) :
    ∃ runs, final.state.runs = start.state.runs ++ runs := by
  induction operations generalizing start with
  | nil =>
      cases ran
      exact ⟨[], (List.append_nil _).symm⟩
  | cons operation rest ih =>
      obtain ⟨next, stepped, ran⟩ := clockedOutbox.run_cons_eq_some_iff.mp ran
      obtain ⟨runs, later⟩ := ih ran
      rcases step_run_cases stepped with same | ⟨input, rfl, recorded⟩
      · exact ⟨runs, by rw [later, same]⟩
      · exact ⟨⟨input, start.state.events⟩ :: runs, by simp [later, recorded]⟩

/-! ## Later runs -/

section Later

variable {pk : Uuid} {bound : Time} {start final : Clocked Serial Time}
  {operations : List Operation}

theorem run_postedFrom (issued : pk ∈ start.state.issued) (postponed : Postponed pk bound start)
    (ran : clockedOutbox.run start operations = some final) :
    ∃ runs, final.state.runs = start.state.runs ++ runs ∧ PostedFrom pk bound runs := by
  induction operations generalizing start with
  | nil =>
      cases ran
      exact ⟨[], (List.append_nil _).symm, fun _ member => nomatch member⟩
  | cons operation rest ih =>
      obtain ⟨next, stepped, ran⟩ := clockedOutbox.run_cons_eq_some_iff.mp ran
      obtain ⟨runs, later, posts⟩ :=
        ih (step_issued_subset stepped issued) (step_postponed issued postponed stepped) ran
      rcases step_run_cases stepped with same | ⟨input, rfl, recorded⟩
      · exact ⟨runs, by rw [later, same], posts⟩
      · refine ⟨⟨input, start.state.events⟩ :: runs, by simp [later, recorded], ?_⟩
        intro record member endpoint posted
        rcases List.mem_cons.mp member with rfl | after
        · obtain ⟨event, fetched, _, found, _⟩ := posted_pending posted
          have began := (Machine.clocked_step_eq_some_iff.mp stepped).1
          exact postponed.le_fetchedAt began found (mem_fetchPending fetched).2.1
        · exact posts record after endpoint posted

end Later

/-! ## The attempts since an emission or a reset -/

/-- The column counts the recorded attempts. And as long as the event is PENDING it waits,
from the end of each run before which nothing was recorded, for the delays after all of its
attempts. -/
structure Paced (pk : Uuid) (runs : List RunRecord) (world : Clocked Serial Time) : Prop where
  issued : pk ∈ world.state.issued
  counts : ∀ row, world.state.events.get? pk = some row → row.attempts = recordedAttempts pk runs
  waits : ∀ earlier record later, runs = earlier ++ record :: later →
    recordedAttempts pk earlier = 0 → ∀ row, world.state.events.get? pk = some row →
      row.status = .pending →
        Postponed pk (record.input.updatedAt + leastTotalDelay row.attempts) world

section Attempts

variable {pk : Uuid} {world next : Clocked Serial Time} {runs : List RunRecord}

theorem recordedAttempts_append (pk : Uuid) (runs : List RunRecord) (record : RunRecord) :
    recordedAttempts pk (runs ++ [record]) =
      recordedAttempts pk runs + if record.counted pk then 1 else 0 := by
  simp [recordedAttempts, List.countP_append, List.countP_singleton]

theorem split_append {record last : RunRecord} {earlier later : List RunRecord}
    (split : runs ++ [last] = earlier ++ record :: later) :
    (runs = earlier ∧ last = record) ∨ ∃ between, runs = earlier ++ record :: between := by
  rcases List.eq_nil_or_concat later with rfl | ⟨between, final, rfl⟩
  · have same := List.append_inj' split rfl
    exact .inl ⟨same.1, List.head_eq_of_cons_eq same.2⟩
  · right
    refine ⟨between, ?_⟩
    rw [List.concat_eq_append, ← List.cons_append, ← List.append_assoc] at split
    exact (List.append_inj' split rfl).1

/-- An operation that leaves the row of the event as it was. -/
theorem Paced.of_get?_eq (paced : Paced pk runs world)
    (same : next.state.events.get? pk = world.state.events.get? pk)
    (issued : pk ∈ next.state.issued) (ordered : world.clock ≤ next.clock) :
    Paced pk runs next := by
  refine ⟨issued, ?_, ?_⟩
  · intro row found
    exact paced.counts row (same ▸ found)
  · intro earlier record later split unrecorded row found waiting
    rw [same] at found
    exact (paced.waits earlier record later split unrecorded row found waiting).of_get?_eq same
      ordered

/-- A run that records no attempt for the event. -/
theorem Paced.of_uncounted (paced : Paced pk runs world)
    (same : next.state.events.get? pk = world.state.events.get? pk)
    (issued : pk ∈ next.state.issued) (ordered : world.clock ≤ next.clock) {last : RunRecord}
    (uncounted : last.counted pk = false) (ended : last.input.updatedAt = next.clock) :
    Paced pk (runs ++ [last]) next := by
  have kept := paced.of_get?_eq same issued ordered
  refine ⟨issued, ?_, ?_⟩
  · intro row found
    rw [kept.counts row found, recordedAttempts_append, uncounted]
    rfl
  · intro earlier record later split unrecorded row found waiting
    rcases split_append split with ⟨rfl, rfl⟩ | ⟨between, split⟩
    · left
      rw [kept.counts row found, unrecorded]
      simp [leastTotalDelay, ended]
    · exact kept.waits earlier record between split unrecorded row found waiting

/-- The run that records the next attempt begins after all of the delays. -/
theorem Paced.le_fetchedAt (paced : Paced pk runs world) {input : RunInput} {event : OutboxEvent}
    (began : world.clock ≤ input.fetchedAt) (ended : input.fetchedAt ≤ input.updatedAt)
    (due : event.isDue input.fetchedAt = true)
    (found : world.state.events.get? pk = some event) {last record : RunRecord}
    (is : last.input = input) {earlier later : List RunRecord}
    (split : runs ++ [last] = earlier ++ record :: later)
    (unrecorded : recordedAttempts pk earlier = 0) :
    record.input.updatedAt + leastTotalDelay event.attempts ≤ input.updatedAt := by
  rcases split_append split with ⟨rfl, rfl⟩ | ⟨between, split⟩
  · rw [paced.counts event found, unrecorded, is]
    simp [leastTotalDelay]
  · have waits := paced.waits earlier record between split unrecorded event found
      (isDue_iff.mp due).1
    exact (waits.le_fetchedAt began found due).trans ended

theorem applyResult_due {now : Time} {draw : Draw} {result : EventResult} {event : OutboxEvent}
    (pending : (applyResult now draw result event).status = .pending) :
    ∃ due, (applyResult now draw result event).nextAttemptAt = some due ∧
      now + leastDelay (event.attempts + 1) ≤ due ∧
      10 * (due - now) ≤ 11 * leastDelay (event.attempts + 1) := by
  rcases applyResult_cases now draw result event with
    ⟨_, status, _⟩ | ⟨_, _, status, _⟩ | ⟨_, _, _, _, due, _⟩
  · rw [status] at pending
    cases pending
  · rw [status] at pending
    cases pending
  · obtain ⟨least, most⟩ := timedelta_retrySeconds_bounds (event.attempts + 1) draw
    refine ⟨_, due, add_le_add_right least now, ?_⟩
    rw [add_sub_cancel_left]
    exact most

/-- An attempt that ends in FAILED is the last one. -/
theorem applyResult_spent {now : Time} {draw : Draw} {result : EventResult} {event : OutboxEvent}
    (waiting : event.status = .pending)
    (failed : (applyResult now draw result event).status = .failed) :
    event.maxAttempts ≤ event.attempts + 1 := by
  rcases applyResult_cases now draw result event with
    ⟨_, status, _⟩ | ⟨_, spent, _⟩ | ⟨_, _, status, _⟩
  · rw [status] at failed
    cases failed
  · exact spent
  · rw [status, waiting] at failed
    cases failed

/-- A run that records an attempt of the event. -/
theorem Paced.of_recorded (paced : Paced pk runs world) {input : RunInput} {event : OutboxEvent}
    (began : world.clock ≤ input.fetchedAt) (ended : input.fetchedAt ≤ input.updatedAt)
    (due : event.isDue input.fetchedAt = true)
    (found : world.state.events.get? pk = some event)
    (recorded : next.state.events.get? pk = some (input.recorded event event))
    (issued : pk ∈ next.state.issued) {last : RunRecord} (is : last.input = input)
    (counted : last.counted pk = true) : Paced pk (runs ++ [last]) next := by
  refine ⟨issued, ?_, ?_⟩
  · intro row same
    obtain rfl := Option.some.inj (recorded.symm.trans same)
    rw [RunInput.attempts_recorded, paced.counts event found, recordedAttempts_append, counted]
    rfl
  · intro earlier record later split unrecorded row same waiting
    obtain rfl := Option.some.inj (recorded.symm.trans same)
    have passed := paced.le_fetchedAt began ended due found is split unrecorded
    obtain ⟨time, set, least, _⟩ := applyResult_due waiting
    refine .of_due recorded waiting set ?_
    rw [RunInput.attempts_recorded, leastTotalDelay_succ]
    linarith

theorem counted_iff {record : RunRecord} :
    record.counted pk = true ↔
      ∃ event, event.isDue record.input.fetchedAt = true ∧ record.found.get? pk = some event ∧
        record.outcome.events.get? pk = some (record.input.recorded event event) := by
  constructor
  · intro counted
    rcases get?_processPendingEvents_due record.input record.found pk with same | touched
    · simp [RunRecord.counted, attemptsOf, RunRecord.outcome, same] at counted
    · exact touched
  · intro touched
    obtain ⟨event, _, found, recorded⟩ := touched
    simp [RunRecord.counted, attemptsOf, found, recorded]

theorem Paced.step {operation : Operation} (paced : Paced pk runs world)
    (noReset : NoReset pk world.state operation)
    (stepped : clockedOutbox.step world operation = some next) :
    ∃ more, next.state.runs = world.state.runs ++ more ∧ Paced pk (runs ++ more) next := by
  have later := Machine.clock_le_of_step stepped
  obtain ⟨began, ended, whole, clock⟩ := Machine.clocked_step_eq_some_iff.mp stepped
  obtain ⟨issued, cases⟩ := step_row_cases paced.issued noReset whole
  rcases cases with ⟨same, kept | ⟨gone, _⟩⟩ | ⟨input, rfl, recorded, events⟩
  · exact ⟨[], by simp [same], by simpa using paced.of_get?_eq kept issued later⟩
  · refine ⟨[], by simp [same], ⟨issued, ?_, ?_⟩⟩
    · intro row found
      rw [gone] at found
      cases found
    · intro _ _ _ _ _ row found
      rw [gone] at found
      cases found
  · refine ⟨[⟨input, world.state.events⟩], recorded, ?_⟩
    cases counted : RunRecord.counted ⟨input, world.state.events⟩ pk with
    | true =>
        obtain ⟨event, due, found, after⟩ := counted_iff.mp counted
        rw [RunRecord.outcome, ← events] at after
        exact paced.of_recorded began ended due found after issued rfl counted
    | false =>
        refine paced.of_uncounted ?_ issued later counted clock.symm
        rw [events]
        rcases get?_processPendingEvents_due input world.state.events pk with same | touched
        · exact same
        · rw [counted_iff.mpr touched] at counted
          cases counted

theorem Paced.run {start final : Clocked Serial Time} {operations : List Operation}
    (paced : Paced pk runs start)
    (noReset : clockedOutbox.Meets (fun world => NoReset pk world.state) start operations)
    (ran : clockedOutbox.run start operations = some final) :
    ∃ more, final.state.runs = start.state.runs ++ more ∧ Paced pk (runs ++ more) final := by
  induction operations generalizing start runs with
  | nil =>
      cases ran
      exact ⟨[], by simp, by simpa using paced⟩
  | cons operation rest ih =>
      obtain ⟨next, stepped, ran⟩ := clockedOutbox.run_cons_eq_some_iff.mp ran
      obtain ⟨met, noReset⟩ := noReset next stepped
      obtain ⟨first, recorded, paced⟩ := paced.step met stepped
      obtain ⟨more, later, paced⟩ := ih paced noReset ran
      exact ⟨first ++ more, by simp [later, recorded], by simpa using paced⟩

end Attempts

theorem paced_of_renewed {pk : Uuid} {start : Clocked Serial Time}
    (issued : start.state.events.keys ⊆ start.state.issued)
    (renewed : Renewed pk start.state) : Paced pk [] start := by
  obtain ⟨row, member, rfl, _, unused⟩ := renewed
  refine ⟨issued (Table.mem_keys_of_mem member), ?_, ?_⟩
  · intro other found
    rw [Table.get?_of_mem member, Option.some.injEq] at found
    rw [← found, unused]
    rfl
  · intro earlier record later split
    simp at split

/-- Emission and reset renew an event. -/
theorem Begins.renewed {pk : Uuid} {state next : Serial} {operation : Operation}
    (begins : Begins pk state operation)
    (begun : serialOutbox.step state operation = some next) : Renewed pk next := by
  simp only [serialOutbox] at begun
  cases operation with
  | emitEvent now key arguments =>
      obtain ⟨rfl, events, emitted⟩ := begins
      simp only [Serial.step, emitted] at begun
      split at begun <;> cases begun
      refine ⟨arguments.event now key, ?_, rfl, rfl, rfl⟩
      simp [emitEvent_rows emitted]
  | processPendingEvents input => cases begins
  | retryFailedEvents now selected =>
      obtain ⟨chosen, row, member, rfl, failed⟩ := begins
      rw [← Option.some.inj begun]
      refine ⟨row.reset now, ?_, rfl, rfl, rfl⟩
      rw [retryFailedEvents, Table.mem_updateWhere]
      exact ⟨row, member, by simp [failed, chosen]⟩
  | cleanupDeliveredEvents now retentionHours => cases begins

/-- A run records the k-th attempt of an event since its emission or last reset. If the event
stays PENDING, it is due within 1.1 times the k-th delay, and no later run of any operations
posts it before the delay has passed. If it becomes FAILED, all delays have passed since its
first recorded attempt, and since every run before that one. -/
theorem backoff_is_respected (pk : Uuid) {start middle next final : Clocked Serial Time}
    {operations later : List Operation} {input : RunInput}
    (reachable : clockedOutbox.Reachable (fun world => world.state.Starts) start)
    (renewed : Renewed pk start.state)
    (noReset : clockedOutbox.Meets (fun world => NoReset pk world.state) start operations)
    (ran : clockedOutbox.run start operations = some middle)
    (stepped : clockedOutbox.step middle (.processPendingEvents input) = some next)
    (counted : RunRecord.counted ⟨input, middle.state.events⟩ pk = true)
    (continued : clockedOutbox.run next later = some final) :
    ∃ runs rest row, next.state.runs = start.state.runs ++ runs ∧
      final.state.runs = next.state.runs ++ rest ∧ next.state.events.get? pk = some row ∧
      (row.status = .pending →
        PostedFrom pk (input.updatedAt + leastDelay (recordedAttempts pk runs)) rest ∧
        ∃ due, row.nextAttemptAt = some due ∧
          10 * (due - input.updatedAt) ≤ 11 * leastDelay (recordedAttempts pk runs)) ∧
      (row.status = .failed → ∀ earlier record after, runs = earlier ++ record :: after →
        recordedAttempts pk earlier = 0 →
          record.input.updatedAt + leastTotalDelay (row.maxAttempts - 1) ≤ input.updatedAt) := by
  have issued : start.state.events.keys ⊆ start.state.issued := by
    refine reachable.of_clocked.satisfies ?_ (fun _ _ _ => step_keysIssued)
    intro origin starts
    obtain ⟨events, rfl⟩ := starts
    exact List.Subset.refl _
  obtain ⟨runs, recorded, paced⟩ := (paced_of_renewed issued renewed).run noReset ran
  rw [List.nil_append] at paced
  obtain ⟨began, ended, whole, clock⟩ := Machine.clocked_step_eq_some_iff.mp stepped
  obtain ⟨event, due, found, after⟩ := counted_iff.mp counted
  obtain ⟨events, appended, sameIssued⟩ := Serial.step_processPendingEvents whole
  rw [RunRecord.outcome, ← events] at after
  have known : pk ∈ next.state.issued := sameIssued ▸ paced.issued
  have counts : event.attempts + 1 =
      recordedAttempts pk (runs ++ [⟨input, middle.state.events⟩]) := by
    rw [recordedAttempts_append, counted, paced.counts event found]
    rfl
  -- Every run posts after the time at which it is reached.
  obtain ⟨rest, posts, _⟩ := run_postedFrom known (.inl le_rfl) continued
  refine ⟨runs ++ [⟨input, middle.state.events⟩], rest, _, ?_, posts, after, ?_, ?_⟩
  · rw [appended, recorded, List.append_assoc]
  · intro waiting
    obtain ⟨time, set, least, most⟩ := applyResult_due waiting
    rw [← counts]
    refine ⟨?_, time, set, most⟩
    have postponed := Postponed.of_due after waiting set least
    obtain ⟨same, samePosts, later⟩ := run_postedFrom known postponed continued
    rwa [List.append_cancel_left (posts.symm.trans samePosts)]
  · intro failed earlier record behind split unrecorded
    have passed := paced.le_fetchedAt began ended due found rfl split unrecorded
    have spent := applyResult_spent (isDue_iff.mp due).1 failed
    have fewer : leastTotalDelay (event.maxAttempts - 1) ≤ leastTotalDelay event.attempts :=
      leastTotalDelay_mono (by omega)
    have same : (input.recorded event event).maxAttempts = event.maxAttempts := rfl
    rw [same]
    linarith

/-! ## An event that fails twice -/

namespace Sample

def failingRun (now : Time) : RunInput :=
  { softLimitRun with
    fetchedAt := now
    updatedAt := now
    http := answering 500 }

def failing (now : Time) : Operation := .processPendingEvents (failingRun now)

def clockedEmission : Clocked Serial Time := ⟨emitted, 0⟩

def failedOnce : Clocked Serial Time :=
  (clockedOutbox.step clockedEmission (failing 0)).getD clockedEmission

def failedTwice : Clocked Serial Time :=
  (clockedOutbox.step failedOnce (failing (seconds 60))).getD failedOnce

end Sample

/-- The second failure is recorded after one minute, and the next run is two minutes later. -/
theorem backoff_is_respected_failedTwice :
    ∃ final runs rest row,
      clockedOutbox.step Sample.failedTwice (Sample.failing (seconds 180)) = some final ∧
      final.state.runs = Sample.failedTwice.state.runs ++ rest ∧
      Sample.failedTwice.state.events.get? Sample.key = some row ∧
      (row.status = .pending →
        PostedFrom Sample.key (seconds 60 + leastDelay (recordedAttempts Sample.key runs))
          rest) := by
  have reachable : clockedOutbox.Reachable (fun world => world.state.Starts)
      Sample.clockedEmission :=
    ⟨⟨.init .empty, 0⟩, [.emitEvent 0 Sample.key Sample.arguments], ⟨.empty, rfl⟩, rfl⟩
  have renewed : Renewed Sample.key Sample.clockedEmission.state :=
    ⟨_, List.mem_cons_self, rfl, rfl, rfl⟩
  have noReset : clockedOutbox.Meets (fun world => NoReset Sample.key world.state)
      Sample.clockedEmission [Sample.failing 0] := .cons trivial rfl trivial
  have stepped : clockedOutbox.step Sample.failedOnce (Sample.failing (seconds 60)) =
    some Sample.failedTwice := rfl
  have counted : RunRecord.counted
      ⟨Sample.failingRun (seconds 60), Sample.failedOnce.state.events⟩ Sample.key = true := by
    decide +kernel
  obtain ⟨runs, rest, row, _, posts, found, waits, _⟩ := backoff_is_respected Sample.key
    reachable renewed noReset rfl stepped counted
    (show clockedOutbox.run Sample.failedTwice [Sample.failing (seconds 180)] = some _ from rfl)
  exact ⟨_, runs, rest, row, rfl, posts, found, fun waiting => (waits waiting).1⟩

end Doorito.Common
