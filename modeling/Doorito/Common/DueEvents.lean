import Doorito.Common.Backoff
import Doorito.Common.EventRouting
import Doorito.Foundation.Draining

/-! How a sequence of delivery runs gets through the events that are due. A recorded attempt
makes an event terminal or moves it beyond the next minute, so within this minute each run
takes its batch from the events that no run before it has taken. A run with a result
that the database refuses records nothing, and leaves its batch to the next run. -/

set_option autoImplicit false

namespace Doorito.Common

open Foundation

/-- The event types are lists, and every request ends with a response or a RequestError. -/
structure RunInput.Calm (input : RunInput) : Prop where
  lists : ∀ endpoint ∈ input.endpoints, endpoint.isActive = true →
    ∃ items, endpoint.eventTypes = .array items
  answered : ∀ endpoint request raised, input.http.post endpoint request ≠ .raised raised
  before : ∀ pk, input.http.interruptBefore pk = none
  after : ∀ pk, input.http.interruptAfter pk = none

/-- The keys of the events whose loop body the run has gone through. -/
def RunRecord.attempted (record : RunRecord) : List Uuid :=
  (record.input.finished (record.input.batch record.found)).map (·.pk)

/-- The run goes through its whole batch and records what it has met. -/
structure RunRecord.GetsThrough (record : RunRecord) : Prop where
  calm : record.input.Calm
  taken : record.input.ResultsTaken (record.input.batch record.found)

/-- A run that begins here records nothing that the database refuses. -/
def RecordsResults (world : Clocked Serial Time) : Operation → Prop
  | .processPendingEvents input => input.ResultsTaken (input.batch world.state.events)
  | .emitEvent _ _ _ | .retryFailedEvents _ _ | .cleanupDeliveredEvents _ _ => True

instance (world : Clocked Serial Time) :
    (operation : Operation) → Decidable (RecordsResults world operation)
  | .processPendingEvents input => inferInstanceAs (Decidable (input.ResultsTaken _))
  | .emitEvent _ _ _ | .retryFailedEvents _ _ | .cleanupDeliveredEvents _ _ => isTrue trivial

/-! ## One run -/

section Run

variable {input : RunInput} {events : EventTable}

theorem finishes_of_answered
    (answered : ∀ endpoint request raised, input.http.post endpoint request ≠ .raised raised)
    (event : OutboxEvent) (endpoint : WebhookEndpoint) : Finishes input.http event endpoint := by
  unfold Finishes deliverToEndpoint
  cases outcome : postEvent input.http event endpoint with
  | response statusCode text =>
      rw [PostOutcome.toResult]
      split
      · exact ⟨_, rfl⟩
      · exact ⟨_, rfl⟩
  | requestError name message => exact ⟨_, rfl⟩
  | raised error => exact absurd outcome (answered _ _ _)

theorem RunInput.Calm.raises (calm : input.Calm) (event : OutboxEvent) :
    input.raises event = none := by
  have byName : ∀ endpoint ∈ activeEndpoints input.endpoints,
      endpoint.MatchesByName event.eventType := by
    intro endpoint member
    obtain ⟨listed, active⟩ := mem_activeEndpoints.mp member
    obtain ⟨items, list⟩ := calm.lists endpoint listed active
    rw [matchesByName_iff, list]
    rfl
  rw [RunInput.raises, raisedBy_eq_none_iff_completes byName]
  exact ⟨calm.before _, fun endpoint _ => finishes_of_answered calm.answered event endpoint,
    .inr (calm.after _)⟩

theorem RunInput.Calm.finished (calm : input.Calm) (batch : List OutboxEvent) :
    input.finished batch = batch := by
  refine List.takeWhile_eq_self_iff.mpr fun event _ => ?_
  exact Option.isNone_iff_eq_none.mpr (calm.raises event)

theorem RunInput.Calm.stopsSoftly (calm : input.Calm) (batch : List OutboxEvent) :
    input.StopsSoftly batch := by
  intro raised first
  obtain ⟨event, _, left⟩ := List.exists_of_findSome?_eq_some first
  rw [calm.raises event] at left
  cases left

theorem RunInput.Calm.canCommit (calm : input.Calm)
    (taken : input.ResultsTaken (input.batch events)) :
    input.CanCommit (input.batch events) events :=
  (canCommit_iff_of_stopsSoftly (calm.stopsSoftly _)).mpr taken

theorem leastDelay_ge (attempt : Nat) : seconds 60 ≤ leastDelay attempt := by
  have power : 1 ≤ 2 ^ (attempt - 1) := Nat.one_le_two_pow
  have delay : 60 ≤ min (60 * 2 ^ (attempt - 1)) 3600 := by omega
  have cast : (60 : Int) ≤ (min (60 * 2 ^ (attempt - 1)) 3600 : Nat) := by exact_mod_cast delay
  exact mul_le_mul_of_nonneg_right cast (by decide)

/-- A recorded attempt takes the event out of the next minute. -/
theorem not_isDue_recorded {event row : OutboxEvent} {time : Time}
    (soon : time < input.updatedAt + seconds 60) :
    (input.recorded event row).isDue time = false := by
  rw [Bool.eq_false_iff]
  intro due
  obtain ⟨waiting, reached, set, least⟩ := isDue_iff.mp due
  obtain ⟨next, is, bound, _⟩ := applyResult_due waiting
  have late : input.updatedAt + seconds 60 ≤ time :=
    calc input.updatedAt + seconds 60
        ≤ input.updatedAt + leastDelay (event.attempts + 1) :=
          add_le_add_right (leastDelay_ge _) _
      _ ≤ next := bound
      _ = reached := Option.some.inj (is.symm.trans set)
      _ ≤ time := least
  exact absurd soon (not_lt.mpr late)

end Run

/-! ## The events that wait -/

/-- At each of the times, the events that wait are the due ones of the table. -/
structure Waiting (start : Time) (times : List Time) (waiting : List OutboxEvent)
    (events : EventTable) : Prop where
  distinct : waiting.Nodup
  stored : waiting ⊆ events.rows
  due : ∀ event ∈ waiting, event.isDue start = true
  only : ∀ row ∈ events.rows, ∀ time ∈ times, row.isDue time = true → row ∈ waiting

theorem isDue_mono {event : OutboxEvent} {earlier later : Time} (ordered : earlier ≤ later)
    (due : event.isDue earlier = true) : event.isDue later = true := by
  obtain ⟨waiting, time, set, reached⟩ := isDue_iff.mp due
  exact isDue_iff.mpr ⟨waiting, time, set, reached.trans ordered⟩

section Step

variable {start : Time} {times : List Time} {waiting : List OutboxEvent} {events : EventTable}
  {input : RunInput}

theorem waiting_of_noneDue
    (noneDue : ∀ row ∈ events.rows, ∀ time ∈ times,
      row.isDue time = true → row.isDue start = true) :
    Waiting start (start :: times) (events.rows.filter (·.isDue start)) events := by
  refine ⟨events.unique.of_map.filter _, fun event member => List.mem_of_mem_filter member, ?_, ?_⟩
  · exact fun event member => List.of_mem_filter member
  · intro row member time listed isDue
    refine List.mem_filter.mpr ⟨member, ?_⟩
    rcases List.mem_cons.mp listed with rfl | later
    · exact isDue
    · exact noneDue row member time later isDue

theorem Waiting.keys_nodup (waits : Waiting start times waiting events) :
    (waiting.map (·.pk)).Nodup :=
  waits.distinct.map_on fun _ left _ right same =>
    Table.eq_of_key_eq (waits.stored left) (waits.stored right) same

/-- The batch of a run is taken from the events that wait. -/
theorem Waiting.batch (waits : Waiting start times waiting events)
    (listed : input.fetchedAt ∈ times) (ordered : start ≤ input.fetchedAt) :
    input.batch events ⊆ waiting ∧
      (input.batch events).length = min input.batchSize waiting.length := by
  have fetched : FetchesDue input events (input.batch events) := fetchesDue_batch
  constructor
  · intro event member
    obtain ⟨stored, due⟩ := fetched.due event member
    exact waits.only event stored _ listed due
  · have perm : (events.rows.filter (·.isDue input.fetchedAt)).Perm waiting := by
      rw [List.perm_ext_iff_of_nodup (events.unique.of_map.filter _) waits.distinct]
      intro event
      rw [List.mem_filter]
      constructor
      · intro both
        exact waits.only event both.1 _ listed both.2
      · intro member
        exact ⟨waits.stored member, isDue_mono ordered (waits.due event member)⟩
    rw [fetched.size, Table.count, List.countP_eq_length_filter, perm.length_eq]

theorem mem_waiting_left {event : OutboxEvent} {keys : List Uuid} :
    event ∈ waiting.filter (·.pk ∉ keys) ↔ event ∈ waiting ∧ event.pk ∉ keys := by
  rw [List.mem_filter, decide_eq_true_iff]

theorem Waiting.processPendingEvents (waits : Waiting start times waiting events)
    (calm : input.Calm) (taken : input.ResultsTaken (input.batch events))
    (soon : ∀ time ∈ times, time < input.updatedAt + seconds 60) :
    Waiting start times (waiting.filter (·.pk ∉ (input.batch events).map (·.pk)))
      (processPendingEvents input events).events := by
  have distinct := input.batch_nodup events
  obtain ⟨_, _, rows, _⟩ := deliverAndUpdate_of_canCommit distinct (calm.canCommit taken)
  rw [← processPendingEvents_eq] at rows
  have untouched : ∀ row : OutboxEvent, row.pk ∉ (input.batch events).map (·.pk) →
      updateRow input.updatedAt input.random (input.delivery (input.batch events)).results
        (input.batch events) row = row := by
    intro row absent
    refine updateRow_of_unfinished distinct ?_
    intro event done same
    exact absent (List.mem_map.mpr ⟨event, finished_subset done, same⟩)
  refine ⟨waits.distinct.filter _, ?_, ?_, ?_⟩
  · intro event member
    obtain ⟨left, absent⟩ := mem_waiting_left.mp member
    rw [rows, List.mem_map]
    exact ⟨event, waits.stored left, untouched event absent⟩
  · intro event member
    exact waits.due event (mem_waiting_left.mp member).1
  · intro row member time listed due
    rw [rows, List.mem_map] at member
    obtain ⟨old, stored, rfl⟩ := member
    by_cases fetched : ∃ event ∈ input.batch events, event.pk = old.pk
    · obtain ⟨event, member, key⟩ := fetched
      rw [updateRow_of_finished distinct (calm.finished _ ▸ member) key.symm,
        not_isDue_recorded (soon time listed)] at due
      cases due
    · have absent : old.pk ∉ (input.batch events).map (·.pk) := by
        simpa using fetched
      rw [untouched old absent] at due ⊢
      exact mem_waiting_left.mpr ⟨waits.only old stored time listed due, absent⟩

theorem Waiting.cleanupDeliveredEvents (waits : Waiting start times waiting events) (now : Time)
    (retentionHours : Int) :
    Waiting start times waiting (cleanupDeliveredEvents now retentionHours events).1 := by
  refine ⟨waits.distinct, ?_, waits.due, ?_⟩
  · intro event member
    have pending := (isDue_iff.mp (waits.due event member)).1
    exact (Table.get?_eq_some_iff.mp (get?_cleanupDeliveredEvents_of_pending
      (Table.get?_of_mem (waits.stored member)) pending now retentionHours)).1
  · intro row member time listed due
    rcases get?_cleanupDeliveredEvents row.pk now retentionHours events with same | gone
    · rw [Table.get?_of_mem member] at same
      exact waits.only row (Table.get?_eq_some_iff.mp same.symm).1 time listed due
    · rw [Table.get?_of_mem member] at gone
      cases gone

end Step

/-! ## The records of the runs -/

section Records

variable {record : RunRecord}

theorem attempted_eq (calm : record.input.Calm) :
    record.attempted = (record.input.batch record.found).map (·.pk) := by
  rw [RunRecord.attempted, calm.finished]

theorem attempted_nodup (calm : record.input.Calm) : record.attempted.Nodup := by
  rw [attempted_eq calm]
  exact record.input.batch_nodup record.found

variable (through : record.GetsThrough)

include through in
theorem returned_of_getsThrough : ∃ summary, record.outcome.returned = .ok summary ∧
    summary.processed = record.attempted.length := by
  obtain ⟨summary, returned, _, processed, _⟩ := deliverAndUpdate_of_canCommit
    (record.input.batch_nodup record.found) (through.calm.canCommit through.taken)
  rw [RunRecord.outcome, processPendingEvents_eq, RunRecord.attempted, List.length_map]
  exact ⟨summary, returned, processed⟩

include through in
/-- An attempt is recorded for the events that the loop has gone through. -/
theorem counted_iff_attempted {pk : Uuid} : record.counted pk = true ↔ pk ∈ record.attempted := by
  have can := through.calm.canCommit through.taken
  constructor
  · intro counted
    by_contra absent
    have unfinished : ∀ row : OutboxEvent, row.pk = pk →
        updateRow record.input.updatedAt record.input.random
          (record.input.delivery (record.input.batch record.found)).results
          (record.input.batch record.found) row = row := by
      intro row key
      refine updateRow_of_unfinished (record.input.batch_nodup record.found) ?_
      intro event done same
      exact absent (List.mem_map.mpr ⟨event, done, same.trans key⟩)
    have same : record.outcome.events.get? pk = record.found.get? pk := by
      rw [RunRecord.outcome, get?_processPendingEvents_of_canCommit can]
      cases found : record.found.get? pk with
      | none => rfl
      | some row => rw [Option.map_some, unfinished row (Table.get?_eq_some_iff.mp found).2]
    simp [RunRecord.counted, attemptsOf, same] at counted
  · intro attempted
    obtain ⟨event, done, rfl⟩ := List.mem_map.mp attempted
    exact counted_iff.mpr ⟨event, (fetchesDue_batch.due event (finished_subset done)).2,
      Table.get?_of_mem (mem_rows_of_finished done).1,
      get?_processPendingEvents_of_finished can done⟩

end Records

/-- The attempts recorded for an event, counted in what the runs have attempted. -/
theorem recordedAttempts_eq_count {records : List RunRecord}
    (through : ∀ record ∈ records, record.GetsThrough) (pk : Uuid) :
    recordedAttempts pk records = ((records.map (·.attempted)).flatten).count pk := by
  induction records with
  | nil => rfl
  | cons record rest ih =>
      rw [List.forall_mem_cons] at through
      have later := ih through.2
      rw [recordedAttempts] at later ⊢
      rw [List.countP_cons, later, List.map_cons, List.flatten_cons, List.count_append,
        List.Nodup.count (attempted_nodup through.1.calm), Nat.add_comm]
      simp only [counted_iff_attempted through.1]

/-! ## A sequence of runs -/

/-- Runs of one batch size, and cleanups; nothing adds or resets an event. -/
def Operation.KeepsDueSet (batchSize : Nat) : Operation → Prop
  | .processPendingEvents input => input.batchSize = batchSize ∧ input.Calm
  | .cleanupDeliveredEvents _ _ => True
  | .emitEvent _ _ _ | .retryFailedEvents _ _ => False

def fetchTimes (operations : List Operation) : List Time :=
  operations.filterMap fun
    | .processPendingEvents input => some input.fetchedAt
    | .emitEvent _ _ _ | .retryFailedEvents _ _ | .cleanupDeliveredEvents _ _ => none

section Sequence

variable {start : Time} {times : List Time} {waiting : List OutboxEvent} {batchSize : Nat}
  {world next final : Clocked Serial Time}

/-- A run takes its batch and leaves the others waiting. -/
theorem Waiting.step {input : RunInput}
    (waits : Waiting start times waiting world.state.events) (ordered : start ≤ input.fetchedAt)
    (listed : input.fetchedAt ∈ times)
    (soon : ∀ time ∈ times, time < input.updatedAt + seconds 60) (calm : input.Calm)
    (taken : input.ResultsTaken (input.batch world.state.events))
    (stepped : clockedOutbox.step world (.processPendingEvents input) = some next) :
    ∃ record : RunRecord, record.input = input ∧ record.GetsThrough ∧
      next.state.runs = world.state.runs ++ [record] ∧ next.clock = input.updatedAt ∧
      record.attempted ⊆ waiting.map (·.pk) ∧
      record.attempted.length = min input.batchSize waiting.length ∧
      Waiting start times (waiting.filter (·.pk ∉ record.attempted)) next.state.events := by
  obtain ⟨_, _, whole, clock⟩ := Machine.clocked_step_eq_some_iff.mp stepped
  obtain ⟨events, appended, _⟩ := Serial.step_processPendingEvents whole
  obtain ⟨subset, length⟩ := waits.batch listed ordered
  refine ⟨⟨input, world.state.events⟩, rfl, ⟨calm, taken⟩, appended, clock, ?_⟩
  rw [attempted_eq calm, events, List.length_map]
  exact ⟨List.map_subset _ subset, length, waits.processPendingEvents calm taken soon⟩

/-- A run drains its batch from what waits, and later runs the rest. -/
theorem drains_cons {record : RunRecord} {attempts : List (List Uuid)}
    (calm : record.input.Calm) (subset : record.attempted ⊆ waiting.map (·.pk))
    (length : record.attempted.length = min record.input.batchSize waiting.length)
    (drains : Drains record.input.batchSize
      ((waiting.filter (·.pk ∉ record.attempted)).map (·.pk)) attempts) :
    Drains record.input.batchSize (waiting.map (·.pk)) (record.attempted :: attempts) := by
  refine .cons (attempted_nodup calm) subset (by rw [length, List.length_map]) ?_
  rw [List.filter_map]
  exact drains

theorem Waiting.run {operations : List Operation}
    (waits : Waiting start times waiting world.state.events) (ordered : start ≤ world.clock)
    (soon : ∀ time ∈ times, time < world.clock + seconds 60)
    (listed : fetchTimes operations ⊆ times)
    (kept : ∀ operation ∈ operations, operation.KeepsDueSet batchSize)
    (taken : clockedOutbox.Meets RecordsResults world operations)
    (ran : clockedOutbox.run world operations = some final) :
    ∃ records, final.state.runs = world.state.runs ++ records ∧
      (∀ record ∈ records, record.GetsThrough) ∧
      Drains batchSize (waiting.map (·.pk)) (records.map (·.attempted)) := by
  induction operations generalizing world waiting with
  | nil =>
      cases ran
      exact ⟨[], (List.append_nil _).symm, by simp, .nil⟩
  | cons operation rest ih =>
      obtain ⟨next, stepped, ranRest⟩ := clockedOutbox.run_cons_eq_some_iff.mp ran
      obtain ⟨began, ended, whole, clock⟩ := Machine.clocked_step_eq_some_iff.mp stepped
      obtain ⟨takenHere, takenLater⟩ := taken next stepped
      rw [List.forall_mem_cons] at kept
      have later := Machine.clock_le_of_step stepped
      have soonNext : ∀ time ∈ times, time < next.clock + seconds 60 := fun time member =>
        (soon time member).trans_le (add_le_add_left later _)
      cases operation with
      | processPendingEvents input =>
          have listedHere : input.fetchedAt ∈ times := listed List.mem_cons_self
          have listedLater : fetchTimes rest ⊆ times :=
            fun time member => listed (List.mem_cons_of_mem _ member)
          obtain ⟨rfl, calm⟩ := kept.1
          have atUpdate : ∀ time ∈ times, time < input.updatedAt + seconds 60 := by
            rw [clock] at soonNext
            exact soonNext
          obtain ⟨record, rfl, through, appended, _, subset, length, waits⟩ :=
            waits.step (ordered.trans began) listedHere atUpdate calm takenHere stepped
          obtain ⟨records, recorded, allThrough, drains⟩ :=
            ih waits (ordered.trans later) soonNext listedLater kept.2 takenLater ranRest
          refine ⟨record :: records, ?_, List.forall_mem_cons.mpr ⟨through, allThrough⟩, ?_⟩
          · rw [recorded, appended, List.append_assoc]
            rfl
          · exact drains_cons calm subset length drains
      | cleanupDeliveredEvents now retentionHours =>
          have table : next.state.events = (Doorito.Common.cleanupDeliveredEvents now
                retentionHours world.state.events).1 ∧ next.state.runs = world.state.runs := by
            rw [← Option.some.inj whole]
            exact ⟨rfl, rfl⟩
          have waitsNext := waits.cleanupDeliveredEvents now retentionHours
          rw [← table.1] at waitsNext
          obtain ⟨records, recorded, results⟩ :=
            ih waitsNext (ordered.trans later) soonNext listed kept.2 takenLater ranRest
          exact ⟨records, by rw [recorded, table.2], results⟩
      | emitEvent now key arguments => exact kept.1.elim
      | retryFailedEvents now selected => exact kept.1.elim

end Sequence

section Drained

variable {due : List OutboxEvent} {batchSize : Nat} {records earlier later : List RunRecord}

theorem countP_counted_eq {record : RunRecord} (distinct : (due.map (·.pk)).Nodup)
    (through : record.GetsThrough) (subset : record.attempted ⊆ due.map (·.pk)) :
    due.countP (fun event => record.counted event.pk) = record.attempted.length := by
  rw [← (filter_mem_perm distinct (attempted_nodup through.calm) subset).length_eq,
    List.filter_map, List.length_map, ← List.countP_eq_length_filter]
  refine List.countP_congr fun event _ => ?_
  rw [Function.comp_apply, decide_eq_true_iff]
  exact counted_iff_attempted through

theorem recordedAttempts_eq_zero_iff (through : ∀ record ∈ records, record.GetsThrough)
    {pk : Uuid} :
    recordedAttempts pk records = 0 ↔ pk ∉ (records.map (·.attempted)).flatten := by
  rw [recordedAttempts_eq_count through, List.count_eq_zero]

/-- Each run attempts as many as the runs before it have left. -/
theorem countP_counted_eq_min {record : RunRecord} (distinct : (due.map (·.pk)).Nodup)
    (through : ∀ other ∈ earlier ++ record :: later, other.GetsThrough)
    (drains : Drains batchSize (due.map (·.pk))
      ((earlier ++ record :: later).map (·.attempted))) :
    due.countP (fun event => record.counted event.pk) = record.attempted.length ∧
      record.attempted.length =
        min batchSize (due.countP fun event => recordedAttempts event.pk earlier = 0) := by
  have recordThrough := through record (List.mem_append_right _ List.mem_cons_self)
  have earlierThrough : ∀ other ∈ earlier, other.GetsThrough :=
    fun other member => through other (List.mem_append_left _ member)
  constructor
  · refine countP_counted_eq distinct recordThrough ?_
    intro pk member
    refine drains.subset (List.mem_flatten.mpr ⟨record.attempted, ?_, member⟩)
    exact List.mem_map_of_mem (List.mem_append_right _ List.mem_cons_self)
  · rw [List.map_append, List.map_cons] at drains
    rw [drains.length_eq, List.filter_map, List.length_map, ← List.countP_eq_length_filter]
    congr 1
    refine List.countP_congr fun event _ => ?_
    rw [Function.comp_apply, decide_eq_true_iff, decide_eq_true_iff,
      recordedAttempts_eq_zero_iff earlierThrough]

/-- Enough runs attempt every event once, and leave nothing for the others. -/
theorem recordedAttempts_of_enough (distinct : (due.map (·.pk)).Nodup)
    (through : ∀ record ∈ earlier ++ later, record.GetsThrough)
    (drains : Drains batchSize (due.map (·.pk)) ((earlier ++ later).map (·.attempted)))
    (enough : due.length ≤ batchSize * earlier.length) :
    (∀ event ∈ due, recordedAttempts event.pk earlier = 1) ∧
      ∀ record ∈ later, record.attempted = [] := by
  rw [List.map_append] at drains
  have size : (due.map (·.pk)).length ≤ (earlier.map (·.attempted)).length * batchSize := by
    rw [List.length_map, List.length_map, Nat.mul_comm]
    exact enough
  constructor
  · intro event member
    rw [recordedAttempts_eq_count
        fun record listed => through record (List.mem_append_left _ listed),
      (drains.of_append_left.perm distinct size).count_eq]
    exact List.count_eq_one_of_mem distinct (List.mem_map_of_mem member)
  · intro record member
    exact drains.eq_nil_of_enough distinct size (List.mem_map_of_mem member)

end Drained

/-- Each run attempts as many of the due events as the batch size allows and the runs before it
have left. So many runs as the size goes into their number, rounded up, attempt each once, and
later ones process nothing. -/
structure DrainsDue (batchSize : Nat) (due : List OutboxEvent) (records : List RunRecord) :
    Prop where
  each : ∀ earlier record later, records = earlier ++ record :: later →
    ∃ summary, record.outcome.returned = .ok summary ∧
      summary.processed = due.countP (fun event => record.counted event.pk) ∧
      summary.processed =
        min batchSize (due.countP fun event => recordedAttempts event.pk earlier = 0)
  enough : ∀ earlier later, records = earlier ++ later →
    due.length ⌈/⌉ batchSize ≤ earlier.length →
      (∀ event ∈ due, recordedAttempts event.pk earlier = 1) ∧
        ∀ record ∈ later, ∃ summary, record.outcome.returned = .ok summary ∧
          summary.processed = 0

theorem drainsDue_of_drains {batchSize : Nat} (positive : 0 < batchSize)
    {due : List OutboxEvent} {records : List RunRecord} (distinct : (due.map (·.pk)).Nodup)
    (through : ∀ record ∈ records, record.GetsThrough)
    (drains : Drains batchSize (due.map (·.pk)) (records.map (·.attempted))) :
    DrainsDue batchSize due records := by
  constructor
  · intro earlier record later split
    rw [split] at drains through
    obtain ⟨counted, least⟩ := countP_counted_eq_min distinct through drains
    obtain ⟨summary, returned, processed⟩ :=
      returned_of_getsThrough (through record (List.mem_append_right _ List.mem_cons_self))
    exact ⟨summary, returned, processed.trans counted.symm, processed.trans least⟩
  · intro earlier later split enough
    rw [split] at drains through
    obtain ⟨once, empty⟩ := recordedAttempts_of_enough distinct through drains
      ((ceilDiv_le_iff_le_mul positive).mp enough)
    refine ⟨once, ?_⟩
    intro record member
    obtain ⟨summary, returned, processed⟩ :=
      returned_of_getsThrough (through record (List.mem_append_right _ member))
    rw [empty record member] at processed
    exact ⟨summary, returned, processed⟩

/-- Where all runs return, the database has taken all results. -/
theorem recordsResults_of_returned {world final : Clocked Serial Time}
    {operations : List Operation} {records : List RunRecord}
    (ran : clockedOutbox.run world operations = some final)
    (recorded : final.state.runs = world.state.runs ++ records)
    (returned : ∀ record ∈ records, ∃ summary, record.outcome.returned = .ok summary) :
    clockedOutbox.Meets RecordsResults world operations := by
  induction operations generalizing world records with
  | nil => trivial
  | cons operation rest ih =>
      intro next stepped
      obtain ⟨other, steppedOther, ranRest⟩ := clockedOutbox.run_cons_eq_some_iff.mp ran
      obtain rfl : next = other := Option.some.inj (stepped.symm.trans steppedOther)
      obtain ⟨runs, later⟩ := runs_append_of_run ranRest
      rcases step_run_cases stepped with same | ⟨input, rfl, appended⟩
      · refine ⟨?_, ih ranRest (by rw [recorded, same]) returned⟩
        cases operation with
        | processPendingEvents input =>
            have grown := (Serial.step_processPendingEvents (Machine.step_of_clocked stepped)).2.1
            simp [same] at grown
        | _ => trivial
      · have all : ⟨input, world.state.events⟩ :: runs = records := by
          rw [later, appended, List.append_assoc] at recorded
          exact List.append_cancel_left recorded
        rw [← all, List.forall_mem_cons] at returned
        obtain ⟨summary, here⟩ := returned.1
        rw [RunRecord.outcome, processPendingEvents_eq] at here
        exact ⟨((returned_ok_iff (input.batch_nodup _)).mp ⟨summary, here⟩).taken,
          ih ranRest later returned.2⟩

/-- Runs of one batch size that begin within a minute of the first update drain the events that
were due exactly if none of them records anything that the database refuses. -/
theorem due_events_are_drained_iff {batchSize : Nat} (positive : 0 < batchSize)
    {start final : Clocked Serial Time} {first : RunInput} {rest : List Operation}
    (ran : clockedOutbox.run start (.processPendingEvents first :: rest) = some final)
    (kept : ∀ operation ∈ Operation.processPendingEvents first :: rest,
      operation.KeepsDueSet batchSize)
    (window : ∀ time ∈ fetchTimes rest, time < first.updatedAt + seconds 60)
    (noneDue : ∀ row ∈ start.state.events.rows, ∀ time ∈ fetchTimes rest,
      row.isDue time = true → row.isDue first.fetchedAt = true) :
    ∃ records, final.state.runs = start.state.runs ++ records ∧
      (DrainsDue batchSize (start.state.events.rows.filter (·.isDue first.fetchedAt)) records ↔
        clockedOutbox.Meets RecordsResults start (.processPendingEvents first :: rest)) := by
  obtain ⟨records, recorded⟩ := runs_append_of_run ran
  refine ⟨records, recorded, ?_, ?_⟩
  · intro drains
    refine recordsResults_of_returned ran recorded ?_
    intro record member
    obtain ⟨earlier, later, split⟩ := List.append_of_mem member
    obtain ⟨summary, returned, _⟩ := drains.each earlier record later split
    exact ⟨summary, returned⟩
  · intro taken
    obtain ⟨next, stepped, ranRest⟩ := clockedOutbox.run_cons_eq_some_iff.mp ran
    obtain ⟨takenHere, takenLater⟩ := taken next stepped
    have ended : first.fetchedAt ≤ first.updatedAt :=
      (Machine.clocked_step_eq_some_iff.mp stepped).2.1
    rw [List.forall_mem_cons] at kept
    obtain ⟨⟨rfl, calm⟩, keptRest⟩ := kept
    have soon : ∀ time ∈ first.fetchedAt :: fetchTimes rest,
        time < first.updatedAt + seconds 60 := by
      refine List.forall_mem_cons.mpr ⟨?_, window⟩
      exact lt_of_le_of_lt ended (lt_add_of_pos_right _ (by decide))
    have waits := waiting_of_noneDue noneDue
    obtain ⟨record, rfl, through, appended, clock, subset, length, left⟩ :=
      waits.step le_rfl List.mem_cons_self soon calm takenHere stepped
    rw [← clock] at soon ended
    obtain ⟨later, recordedLater, allThrough, drains⟩ :=
      left.run ended soon (List.subset_cons_self _ _) keptRest takenLater ranRest
    have all : records = record :: later := by
      rw [recorded, appended, List.append_assoc] at recordedLater
      exact List.append_cancel_left recordedLater
    rw [all]
    exact drainsDue_of_drains positive waits.keys_nodup
      (List.forall_mem_cons.mpr ⟨through, allThrough⟩) (drains_cons calm subset length drains)

/-! ## Runs over two events -/

namespace Sample

def singleRun : RunInput := { failingRun 0 with batchSize := 1 }

theorem singleRun_calm : singleRun.Calm :=
  ⟨fun listed member active => ⟨[], endpoint_lists listed member active⟩, fun _ _ _ => nofun,
    fun _ => rfl, fun _ => rfl⟩

theorem nullAnswerRun_calm : nullAnswerRun.Calm :=
  ⟨fun listed member active => ⟨[], endpoint_lists listed member active⟩, fun _ _ _ => nofun,
    fun _ => rfl, fun _ => rfl⟩

def twoWaiting : Clocked Serial Time := ⟨.init twoEvents, 0⟩

end Sample

/-- Three runs of batch size one, whose requests are answered with 500. -/
theorem due_events_are_drained_iff_singleRun :
    ∃ final records,
      clockedOutbox.run Sample.twoWaiting
        (List.replicate 3 (.processPendingEvents Sample.singleRun)) = some final ∧
      final.state.runs = records ∧
      DrainsDue 1 (Sample.twoEvents.rows.filter (·.isDue 0)) records := by
  have kept : ∀ operation ∈ List.replicate 3 (Operation.processPendingEvents Sample.singleRun),
      operation.KeepsDueSet 1 := by
    intro operation member
    rw [List.eq_of_mem_replicate member]
    exact ⟨rfl, Sample.singleRun_calm⟩
  have taken : clockedOutbox.Meets RecordsResults Sample.twoWaiting
      (List.replicate 3 (.processPendingEvents Sample.singleRun)) := by
    refine .cons ?_ rfl (.cons ?_ rfl (.cons ?_ rfl trivial)) <;> decide +kernel
  obtain ⟨records, recorded, drains⟩ := due_events_are_drained_iff (by decide)
    (show clockedOutbox.run Sample.twoWaiting
      (List.replicate 3 (.processPendingEvents Sample.singleRun)) = some _ from rfl) kept
    (by decide) (by decide)
  exact ⟨_, records, rfl, recorded, drains.mpr taken⟩

/-- The database refuses the text of the answer, and the run leaves its events as they were. -/
theorem due_events_are_not_drained :
    ¬ ∀ (batchSize : Nat) (start final : Clocked Serial Time) (first : RunInput)
      (rest : List Operation), 0 < batchSize →
      clockedOutbox.run start (.processPendingEvents first :: rest) = some final →
      (∀ operation ∈ Operation.processPendingEvents first :: rest,
        operation.KeepsDueSet batchSize) →
      (∀ time ∈ fetchTimes rest, time < first.updatedAt + seconds 60) →
      (∀ row ∈ start.state.events.rows, ∀ time ∈ fetchTimes rest,
        row.isDue time = true → row.isDue first.fetchedAt = true) →
      ∃ records, final.state.runs = start.state.runs ++ records ∧
        DrainsDue batchSize (start.state.events.rows.filter (·.isDue first.fetchedAt))
          records := by
  intro drained
  have kept : ∀ operation ∈ [Operation.processPendingEvents Sample.nullAnswerRun],
      operation.KeepsDueSet 20 := by
    intro operation member
    rw [List.mem_singleton.mp member]
    exact ⟨rfl, Sample.nullAnswerRun_calm⟩
  obtain ⟨records, recorded, drains⟩ := drained 20 Sample.twoWaiting _ Sample.nullAnswerRun []
    (by decide) rfl kept (by decide) (by decide)
  obtain ⟨summary, returned, _⟩ := drains.each [] ⟨Sample.nullAnswerRun, Sample.twoEvents⟩ []
    recorded.symm
  cases returned

end Doorito.Common
