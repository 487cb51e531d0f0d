import Doorito.Common.SerialOutbox

/-! How often an event is sent. Every run that records an attempt takes one from the
budget of the event, and an event without budget is not sent. A run that posts an event
and is cut short before it records the result leaves the budget as it was. -/

set_option autoImplicit false

namespace Doorito.Common

open Foundation

/-- The attempts that are left to an event; at least one while it is PENDING. -/
def budget (pk : Uuid) (events : EventTable) : Nat :=
  match events.get? pk with
  | some row => if row.status = .pending then max (row.maxAttempts - row.attempts) 1 else 0
  | none => 0

def attemptsOf (pk : Uuid) (events : EventTable) : Option Nat :=
  (events.get? pk).map (·.attempts)

namespace RunRecord

variable (record : RunRecord) (pk endpoint : Uuid)

def posted : Bool := (pk, endpoint) ∈ record.outcome.posts

def counted : Bool := attemptsOf pk record.outcome.events ≠ attemptsOf pk record.found

/-- The run was left by an exception in the loop body of the event, or it could not commit:
an exception other than the soft time limit came anywhere in its batch, or the database
refused a result. -/
def CutShort : Prop :=
  (∃ event ∈ record.input.batch record.found, event.pk = pk ∧
      record.input.raises event ≠ none) ∨
    ¬ record.input.CanCommit (record.input.batch record.found) record.found

end RunRecord

/-- The number of runs that posted the event to the endpoint. -/
def postingRuns (pk endpoint : Uuid) (runs : List RunRecord) : Nat :=
  runs.countP fun record => record.posted pk endpoint

/-- The number of those among them that recorded no attempt for it. -/
def lostRuns (pk endpoint : Uuid) (runs : List RunRecord) : Nat :=
  runs.countP fun record => record.posted pk endpoint && !record.counted pk

def NoReset (pk : Uuid) (state : Serial) : Operation → Prop
  | .retryFailedEvents _ selected =>
      ∀ row ∈ state.events.rows, row.pk = pk → row.status = .failed → pk ∉ selected
  | _ => True

def Begins (pk : Uuid) (state : Serial) : Operation → Prop
  | .emitEvent now key arguments =>
      key = pk ∧ ∃ events, emitEvent now key arguments state.events = .ok events
  | .retryFailedEvents _ selected =>
      pk ∈ selected ∧ ∃ row ∈ state.events.rows, row.pk = pk ∧ row.status = .failed
  | .processPendingEvents _ | .cleanupDeliveredEvents _ _ => False

/-! ## One run -/

section Run

variable (input : RunInput) (events : EventTable) {pk : Uuid}

variable {input events} in
theorem get?_processPendingEvents_of_canCommit
    (can : input.CanCommit (input.batch events) events) :
    (processPendingEvents input events).events.get? pk = (events.get? pk).map
      (updateRow input.updatedAt input.random (input.delivery (input.batch events)).results
        (input.batch events)) := by
  obtain ⟨_, _, rows, _⟩ := deliverAndUpdate_of_canCommit (input.batch_nodup events) can
  rw [processPendingEvents_eq]
  exact Table.get?_of_rows_eq_map rows (fun row => pk_updateRow _ row) pk

variable {input events} in
theorem get?_processPendingEvents_of_finished {event : OutboxEvent}
    (can : input.CanCommit (input.batch events) events)
    (done : event ∈ input.finished (input.batch events)) :
    (processPendingEvents input events).events.get? event.pk =
      some (input.recorded event event) := by
  rw [get?_processPendingEvents_of_canCommit can,
    Table.get?_of_mem (mem_rows_of_finished done).1, Option.map_some,
    updateRow_of_finished (input.batch_nodup events) done rfl]

/-- A run leaves the row as it was, or records an attempt of an event that was due. -/
theorem get?_processPendingEvents_due (pk : Uuid) :
    (processPendingEvents input events).events.get? pk = events.get? pk ∨
      ∃ event, event.isDue input.fetchedAt = true ∧ events.get? pk = some event ∧
        (processPendingEvents input events).events.get? pk =
          some (input.recorded event event) := by
  by_cases can : input.CanCommit (input.batch events) events
  · by_cases touched : ∃ event ∈ input.finished (input.batch events), event.pk = pk
    · obtain ⟨event, done, rfl⟩ := touched
      obtain ⟨member, due, _⟩ := mem_fetchPending (finished_subset done)
      exact .inr ⟨event, due, Table.get?_of_mem member,
        get?_processPendingEvents_of_finished can done⟩
    · left
      rw [get?_processPendingEvents_of_canCommit can]
      cases found : events.get? pk with
      | none => rfl
      | some row =>
          have key := (Table.get?_eq_some_iff.mp found).2
          push Not at touched
          rw [Option.map_some, updateRow_of_unfinished (input.batch_nodup events) (by rwa [key])]
  · left
    rw [processPendingEvents_eq, (deliverAndUpdate_of_not_canCommit (input.batch_nodup events)
      can).1]

theorem get?_processPendingEvents (pk : Uuid) :
    (processPendingEvents input events).events.get? pk = events.get? pk ∨
      ∃ event, event.status = .pending ∧ events.get? pk = some event ∧
        (processPendingEvents input events).events.get? pk =
          some (input.recorded event event) := by
  refine (get?_processPendingEvents_due input events pk).imp_right ?_
  intro touched
  obtain ⟨event, due, found, after⟩ := touched
  exact ⟨event, (isDue_iff.mp due).1, found, after⟩

theorem posted_pending {record : RunRecord} {endpoint : Uuid}
    (posted : record.posted pk endpoint = true) :
    ∃ event ∈ record.input.batch record.found, event.pk = pk ∧
      record.found.get? pk = some event ∧ event.status = .pending ∧
      (record.input.raises event = none →
        event ∈ record.input.finished (record.input.batch record.found)) := by
  have member : (pk, endpoint) ∈ record.outcome.posts := by simpa [RunRecord.posted] using posted
  have sent : (pk, endpoint) ∈
      (record.input.delivery (record.input.batch record.found)).posts := by
    rwa [RunRecord.outcome, processPendingEvents_eq, deliverAndUpdate_posts] at member
  obtain ⟨event, fetched, key, finished⟩ := deliverEvents_posts _ _ sent
  obtain ⟨row, due, _⟩ := mem_fetchPending fetched
  change event.pk = pk at key
  subst key
  exact ⟨event, fetched, rfl, Table.get?_of_mem row, (isDue_iff.mp due).1, finished⟩

theorem cutShort_of_lost {record : RunRecord} {endpoint : Uuid}
    (posted : record.posted pk endpoint = true) (lost : record.counted pk = false) :
    record.CutShort pk := by
  obtain ⟨event, fetched, key, found, waiting, finished⟩ := posted_pending posted
  by_contra whole
  unfold RunRecord.CutShort at whole
  push Not at whole
  obtain ⟨undisturbed, can⟩ := whole
  have done := finished (undisturbed event fetched key)
  have after := get?_processPendingEvents_of_finished can done
  rw [key] at after
  simp [RunRecord.counted, attemptsOf, RunRecord.outcome, after, found] at lost

/-- A run takes from the budget what it counts. -/
theorem budget_processPendingEvents (pk : Uuid) (record : RunRecord) :
    budget pk record.outcome.events + (if record.counted pk then 1 else 0) ≤
      budget pk record.found := by
  rcases get?_processPendingEvents record.input record.found pk with
    same | ⟨event, waiting, found, after⟩
  · have kept : record.counted pk = false := by
      simp [RunRecord.counted, attemptsOf, RunRecord.outcome, same]
    simp [budget, RunRecord.outcome, same, kept]
  · have before : budget pk record.found = max (event.maxAttempts - event.attempts) 1 := by
      simp [budget, found, waiting]
    rcases applyResult_cases record.input.updatedAt (record.input.random event.pk)
      (record.input.result event) event with
      ⟨_, status, _⟩ | ⟨_, _, status, _⟩ | ⟨_, left, status, _⟩
    · have spent : budget pk record.outcome.events = 0 := by
        simp [budget, RunRecord.outcome, after, RunInput.recorded, RunInput.applied, status]
      split_ifs <;> omega
    · have spent : budget pk record.outcome.events = 0 := by
        simp [budget, RunRecord.outcome, after, RunInput.recorded, RunInput.applied, status]
      split_ifs <;> omega
    · have remains : budget pk record.outcome.events =
          max (event.maxAttempts - (event.attempts + 1)) 1 := by
        simp [budget, RunRecord.outcome, after, RunInput.recorded, RunInput.applied, status,
          waiting]
      split_ifs <;> omega

end Run

/-! ## Sequences of operations -/

def HasLeft (pk : Uuid) (events : EventTable) : Prop :=
  ∀ row, events.get? pk = some row → row.status = .pending →
    row.attempts < max row.maxAttempts 1

/-- What the operations between two states do to the budget of the event. -/
structure Spends (pk endpoint : Uuid) (earlier later : Serial) (segment : List RunRecord) :
    Prop where
  runs : later.runs = earlier.runs ++ segment
  spent : postingRuns pk endpoint segment + budget pk later.events ≤
    budget pk earlier.events + lostRuns pk endpoint segment
  falls : budget pk later.events ≤ budget pk earlier.events
  found : ∀ record ∈ segment, budget pk record.found ≤ budget pk earlier.events
  cut : ∀ record ∈ segment, record.posted pk endpoint = true → record.counted pk = false →
    record.CutShort pk

section Segment

variable {pk endpoint : Uuid}

theorem Spends.of_no_run {earlier later : Serial} (runs : later.runs = earlier.runs)
    (falls : budget pk later.events ≤ budget pk earlier.events) :
    Spends pk endpoint earlier later [] := by
  refine ⟨by simp [runs], by simpa [postingRuns, lostRuns] using falls, falls, ?_, ?_⟩
  · intro record none
    cases none
  · intro record none
    cases none

theorem Spends.trans {first second third : Serial} {one two : List RunRecord}
    (left : Spends pk endpoint first second one) (right : Spends pk endpoint second third two) :
    Spends pk endpoint first third (one ++ two) := by
  have leftSpent := left.spent
  have rightSpent := right.spent
  refine ⟨by rw [right.runs, left.runs, List.append_assoc], ?_, right.falls.trans left.falls,
    ?_, ?_⟩
  · rw [postingRuns, lostRuns, List.countP_append, List.countP_append]
    unfold postingRuns lostRuns at leftSpent rightSpent
    omega
  · intro record member
    rcases List.mem_append.mp member with here | later
    · exact left.found record here
    · exact (right.found record later).trans left.falls
  · intro record member
    rcases List.mem_append.mp member with here | later
    · exact left.cut record here
    · exact right.cut record later

theorem Spends.of_run (state : Serial) (record : RunRecord) (found : record.found = state.events) :
    Spends pk endpoint state
      { state with events := record.outcome.events, runs := state.runs ++ [record] } [record] := by
  have counts := budget_processPendingEvents pk record
  rw [found] at counts
  have falls : budget pk record.outcome.events ≤ budget pk state.events := by omega
  refine ⟨rfl, ?_, falls, ?_, ?_⟩
  · cases posted : record.posted pk endpoint <;> cases counted : record.counted pk <;>
      simp [postingRuns, lostRuns, posted, counted] at counts ⊢ <;> omega
  · intro other member
    rw [List.mem_singleton.mp member, found]
  · intro other member posted lost
    rw [List.mem_singleton.mp member] at posted lost ⊢
    exact cutShort_of_lost posted lost

theorem budget_of_get?_eq {left right : EventTable} (same : left.get? pk = right.get? pk) :
    budget pk left = budget pk right := by
  simp only [budget, same]

theorem get?_retryFailedEvents_of_noReset {state : Serial} {now : Time} {selected : List Uuid}
    (noReset : NoReset pk state (.retryFailedEvents now selected)) :
    (retryFailedEvents now selected state.events).get? pk = state.events.get? pk := by
  rw [retryFailedEvents, Table.get?_updateWhere]
  cases found : state.events.get? pk with
  | none => rfl
  | some row =>
      obtain ⟨member, key⟩ := Table.get?_eq_some_iff.mp found
      have passed : ¬ (row.status = .failed ∧ row.pk ∈ selected) := by
        intro both
        obtain ⟨failed, chosen⟩ := both
        exact noReset row member key failed (key ▸ chosen)
      simp [passed]

theorem get?_cleanupDeliveredEvents (pk : Uuid) (now : Time) (retentionHours : Int)
    (events : EventTable) :
    (cleanupDeliveredEvents now retentionHours events).1.get? pk = events.get? pk ∨
      (cleanupDeliveredEvents now retentionHours events).1.get? pk = none := by
  simp only [cleanupDeliveredEvents]
  split_ifs with nothing
  · exact .inl rfl
  · simp only [deleteEvents, Table.get?_deleteWhere]
    cases events.get? pk with
    | none => exact .inr rfl
    | some row =>
        rw [Option.filter_some]
        split_ifs
        · exact .inl rfl
        · exact .inr rfl

theorem get?_emitEvent_of_ne {now : Time} {key : Uuid} {arguments : EmitArguments}
    {events grown : EventTable} (emitted : emitEvent now key arguments events = .ok grown)
    (different : key ≠ pk) : grown.get? pk = events.get? pk :=
  Table.get?_of_rows_eq_append (emitEvent_rows emitted) different

theorem HasLeft.of_get?_eq {left right : EventTable} (same : left.get? pk = right.get? pk)
    (holds : HasLeft pk right) : HasLeft pk left := by
  intro row found
  exact holds row (same ▸ found)

theorem HasLeft.processPendingEvents {events : EventTable} (input : RunInput)
    (holds : HasLeft pk events) :
    HasLeft pk (processPendingEvents input events).events := by
  rcases get?_processPendingEvents input events pk with
    same | ⟨event, _, _, after⟩
  · exact holds.of_get?_eq same
  · intro row found waiting
    rw [after, Option.some.injEq] at found
    subst found
    obtain ⟨_, left⟩ := saved_pending waiting
    simp only [RunInput.attempts_recorded]
    exact left.trans_le (le_max_left _ _)

theorem get?_cleanupDeliveredEvents_of_pending {events : EventTable} {row : OutboxEvent}
    (found : events.get? pk = some row) (waiting : row.status = .pending) (now : Time)
    (retentionHours : Int) :
    (cleanupDeliveredEvents now retentionHours events).1.get? pk = some row := by
  simp only [cleanupDeliveredEvents]
  split_ifs with nothing
  · exact found
  · obtain ⟨member, rfl⟩ := Table.get?_eq_some_iff.mp found
    apply Table.get?_of_mem
    refine mem_deleteEvents.mpr ⟨member, ?_⟩
    intro selected
    obtain ⟨other, otherMember, same, terminal⟩ := mem_selectTerminal selected
    obtain rfl := Table.eq_of_key_eq otherMember member same
    exact isExpiredTerminal_status terminal waiting

/-- Between two resets of an event, an operation is a run, or leaves the row of the event as
it was, or deletes it because it is terminal. -/
theorem step_row_cases {state next : Serial} {operation : Operation}
    (issued : pk ∈ state.issued) (noReset : NoReset pk state operation)
    (stepped : serialOutbox.step state operation = some next) :
    pk ∈ next.issued ∧
      ((next.runs = state.runs ∧
        (next.events.get? pk = state.events.get? pk ∨ next.events.get? pk = none ∧
          ∀ row, state.events.get? pk = some row → row.status ≠ .pending)) ∨
      ∃ input, operation = .processPendingEvents input ∧
        next.runs = state.runs ++ [⟨input, state.events⟩] ∧
        next.events = (processPendingEvents input state.events).events) := by
  simp only [serialOutbox] at stepped
  cases operation with
  | emitEvent now key arguments =>
      simp only [Serial.step] at stepped
      split at stepped
      · cases stepped
      · next fresh =>
        have different : key ≠ pk := fun same => fresh (same ▸ issued)
        split at stepped
        · next events emitted =>
          rw [← Option.some.inj stepped]
          exact ⟨List.mem_cons_of_mem _ issued,
            .inl ⟨rfl, .inl (get?_emitEvent_of_ne emitted different)⟩⟩
        · rw [← Option.some.inj stepped]
          exact ⟨issued, .inl ⟨rfl, .inl rfl⟩⟩
  | processPendingEvents input =>
      rw [← Option.some.inj stepped]
      exact ⟨issued, .inr ⟨input, rfl, rfl, rfl⟩⟩
  | retryFailedEvents now selected =>
      rw [← Option.some.inj stepped]
      exact ⟨issued, .inl ⟨rfl, .inl (get?_retryFailedEvents_of_noReset noReset)⟩⟩
  | cleanupDeliveredEvents now retentionHours =>
      rw [← Option.some.inj stepped]
      refine ⟨issued, .inl ⟨rfl, ?_⟩⟩
      rcases get?_cleanupDeliveredEvents pk now retentionHours state.events with same | gone
      · exact .inl same
      · refine .inr ⟨gone, ?_⟩
        intro row found waiting
        have kept := get?_cleanupDeliveredEvents_of_pending found waiting now retentionHours
        rw [gone] at kept
        cases kept

structure Known (pk : Uuid) (state : Serial) : Prop where
  issued : pk ∈ state.issued
  left : HasLeft pk state.events

theorem step_spends {state next : Serial} {operation : Operation} (known : Known pk state)
    (noReset : NoReset pk state operation)
    (stepped : serialOutbox.step state operation = some next) :
    Known pk next ∧ ∃ segment, Spends pk endpoint state next segment := by
  obtain ⟨issued, cases⟩ := step_row_cases known.issued noReset stepped
  rcases cases with ⟨runs, same | ⟨gone, _⟩⟩ | ⟨input, rfl, _, _⟩
  · exact ⟨⟨issued, known.left.of_get?_eq same⟩, [], .of_no_run runs (budget_of_get?_eq same).le⟩
  · refine ⟨⟨issued, ?_⟩, [], .of_no_run runs ?_⟩
    · intro row found
      rw [gone] at found
      cases found
    · simp [budget, gone]
  · simp only [serialOutbox, Serial.step, Option.some.injEq] at stepped
    subst stepped
    exact ⟨⟨issued, known.left.processPendingEvents input⟩, _,
      .of_run state ⟨input, state.events⟩ rfl⟩

theorem run_spends (endpoint : Uuid) {start final : Serial} {operations : List Operation}
    (known : Known pk start) (noReset : serialOutbox.Meets (NoReset pk) start operations)
    (ran : serialOutbox.run start operations = some final) :
    Known pk final ∧ ∃ segment, Spends pk endpoint start final segment := by
  refine Machine.run_relates (Known pk)
    (fun earlier later => ∃ segment, Spends pk endpoint earlier later segment)
    (fun _ => ⟨[], .of_no_run rfl le_rfl⟩) ?_ (fun _ _ _ => step_spends) known noReset ran
  intro first second third earlier later
  obtain ⟨one, left⟩ := earlier
  obtain ⟨two, right⟩ := later
  exact ⟨one ++ two, left.trans right⟩

theorem posted_budget {record : RunRecord} (posted : record.posted pk endpoint = true) :
    0 < budget pk record.found := by
  obtain ⟨event, _, _, found, waiting, _⟩ := posted_pending posted
  simp [budget, found, waiting]

theorem Spends.postingRuns_eq_zero {earlier later : Serial} {segment : List RunRecord}
    (spends : Spends pk endpoint earlier later segment)
    (spent : budget pk earlier.events = 0) : postingRuns pk endpoint segment = 0 := by
  rw [postingRuns, List.countP_eq_zero]
  intro record member posted
  have bound := spends.found record member
  have positive := posted_budget posted
  omega

theorem budget_eq_zero {events : EventTable} (left : HasLeft pk events)
    (spent : ∀ row ∈ events.rows, row.pk = pk → max row.maxAttempts 1 ≤ row.attempts) :
    budget pk events = 0 := by
  unfold budget
  cases found : events.get? pk with
  | none => rfl
  | some row =>
      obtain ⟨member, key⟩ := Table.get?_eq_some_iff.mp found
      have used := spent row member key
      by_cases waiting : row.status = .pending
      · exact absurd (left row found waiting) (not_lt.mpr used)
      · simp [waiting]

theorem begins_fresh {start next : Serial} {operation : Operation}
    (issued : ∀ row ∈ start.events.rows, row.pk ∈ start.issued)
    (begins : Begins pk start operation)
    (begun : serialOutbox.step start operation = some next) :
    pk ∈ next.issued ∧ ∃ row ∈ next.events.rows, row.pk = pk ∧ row.attempts = 0 := by
  simp only [serialOutbox] at begun
  cases operation with
  | emitEvent now key arguments =>
      obtain ⟨rfl, events, emitted⟩ := begins
      simp only [Serial.step, emitted] at begun
      split at begun <;> cases begun
      refine ⟨List.mem_cons_self, arguments.event now key, ?_, rfl, rfl⟩
      simp [emitEvent_rows emitted]
  | processPendingEvents input => cases begins
  | retryFailedEvents now selected =>
      obtain ⟨chosen, row, member, rfl, failed⟩ := begins
      simp only [Serial.step, Option.some.injEq] at begun
      subst begun
      refine ⟨issued row member, row.reset now, ?_, rfl, rfl⟩
      rw [retryFailedEvents, Table.mem_updateWhere]
      exact ⟨row, member, by simp [failed, chosen]⟩
  | cleanupDeliveredEvents now retentionHours => cases begins

end Segment

theorem keys_processPendingEvents (input : RunInput) (events : EventTable) :
    (processPendingEvents input events).events.keys = events.keys := by
  rw [processPendingEvents_eq]
  unfold deliverAndUpdate
  dsimp only
  split
  · rfl
  · split
    · rfl
    · next updated => exact updateEvents_keys updated

theorem step_keysIssued {state next : Serial} {operation : Operation}
    (issued : state.events.keys ⊆ state.issued)
    (stepped : serialOutbox.step state operation = some next) :
    next.events.keys ⊆ next.issued := by
  simp only [serialOutbox] at stepped
  cases operation with
  | emitEvent now key arguments =>
      simp only [Serial.step] at stepped
      split at stepped
      · cases stepped
      · cases emitted : emitEvent now key arguments state.events with
        | error error =>
            simp only [emitted, Option.some.injEq] at stepped
            exact stepped ▸ issued
        | ok events =>
            simp only [emitted, Option.some.injEq] at stepped
            subst stepped
            intro pk member
            simp only [Table.keys, emitEvent_rows emitted, List.map_append,
              List.mem_append] at member
            rcases member with old | new
            · exact List.mem_cons_of_mem _ (issued old)
            · simp only [List.map_cons, List.map_nil, List.mem_singleton] at new
              exact new ▸ List.mem_cons_self
  | processPendingEvents input =>
      simp only [Serial.step, Option.some.injEq] at stepped
      subst stepped
      rw [keys_processPendingEvents]
      exact issued
  | retryFailedEvents now selected =>
      simp only [Serial.step, Option.some.injEq] at stepped
      subst stepped
      rw [retryFailedEvents, Table.keys_updateWhere]
      exact issued
  | cleanupDeliveredEvents now retentionHours =>
      simp only [Serial.step, Option.some.injEq] at stepped
      subst stepped
      simp only [cleanupDeliveredEvents]
      split_ifs
      · exact issued
      · exact List.Subset.trans (Table.keys_deleteWhere_subset _ _) issued

def Serial.Starts (state : Serial) : Prop := ∃ events, state = .init events

/-- From its emission or reset up to the next reset an event is posted by at most as many
runs as it has attempts, and one for an event that allows none, apart from runs that were
cut short before they recorded the result. Once its attempts are used up it is not
posted at all. -/
theorem retry_budget (pk endpoint : Uuid) {start next final : Serial} {operation : Operation}
    {operations : List Operation} (reachable : serialOutbox.Reachable Serial.Starts start)
    (begins : Begins pk start operation)
    (begun : serialOutbox.step start operation = some next)
    (noReset : serialOutbox.Meets (NoReset pk) next operations)
    (ran : serialOutbox.run next operations = some final) :
    ∃ row ∈ next.events.rows, row.pk = pk ∧ ∃ segment, final.runs = next.runs ++ segment ∧
      postingRuns pk endpoint segment ≤
        max row.maxAttempts 1 + lostRuns pk endpoint segment ∧
      (∀ record ∈ segment, record.posted pk endpoint = true → record.counted pk = false →
        record.CutShort pk) ∧
      ∀ before after middle, operations = before ++ after →
        serialOutbox.run next before = some middle →
        (∀ row ∈ middle.events.rows, row.pk = pk → max row.maxAttempts 1 ≤ row.attempts) →
        ∃ rest, final.runs = middle.runs ++ rest ∧ postingRuns pk endpoint rest = 0 := by
  have issued : start.events.keys ⊆ start.issued := by
    refine reachable.satisfies ?_ (fun _ _ _ => step_keysIssued)
    intro origin starts
    obtain ⟨events, rfl⟩ := starts
    exact List.Subset.refl _
  obtain ⟨known, row, member, key, unused⟩ := begins_fresh
    (fun row member => issued (Table.mem_keys_of_mem member)) begins begun
  have found : next.events.get? pk = some row := Table.get?_eq_some_iff.mpr ⟨member, key⟩
  have left : HasLeft pk next.events := by
    intro other otherFound _
    rw [found, Option.some.injEq] at otherFound
    subst otherFound
    rw [unused]
    exact lt_max_of_lt_right Nat.one_pos
  have start : Known pk next := ⟨known, left⟩
  obtain ⟨_, segment, spends⟩ := run_spends endpoint start noReset ran
  refine ⟨row, member, key, segment, spends.runs, ?_, spends.cut, ?_⟩
  · have most : budget pk next.events ≤ max row.maxAttempts 1 := by
      simp only [budget, found, unused, Nat.sub_zero]
      split_ifs <;> simp
    have spent := spends.spent
    omega
  · intro before after middle same ranBefore used
    subst same
    obtain ⟨upTo, fromMiddle⟩ := noReset.append
    obtain ⟨other, otherRan, ranAfter⟩ := (serialOutbox.run_append_eq_some_iff).mp ran
    obtain rfl : middle = other := Option.some.inj (ranBefore.symm.trans otherRan)
    obtain ⟨middleKnown, _⟩ := run_spends endpoint start upTo ranBefore
    obtain ⟨_, rest, restSpends⟩ := run_spends endpoint middleKnown
      (fromMiddle middle ranBefore) ranAfter
    exact ⟨rest, restSpends.runs,
      restSpends.postingRuns_eq_zero (budget_eq_zero middleKnown.left used)⟩

namespace Sample

def timeoutRun : RunInput :=
  { softLimitRun with
    http := { answering 200 with post := fun _ _ => .raised .softTimeLimitExceeded } }

def emitted : Serial :=
  (serialOutbox.step (.init .empty) (.emitEvent 0 key arguments)).getD (.init .empty)

def sixTimeouts : List Operation := List.replicate 6 (.processPendingEvents timeoutRun)

def timedOut : Serial := (serialOutbox.run emitted sixTimeouts).getD emitted

end Sample

/-- All six runs are cut short. -/
theorem retry_budget_sixTimeouts :
    ∃ segment, Sample.timedOut.runs = Sample.emitted.runs ++ segment ∧
      postingRuns Sample.key Sample.endpoint.pk segment ≤
        5 + lostRuns Sample.key Sample.endpoint.pk segment := by
  have noReset : serialOutbox.Meets (NoReset Sample.key) Sample.emitted Sample.sixTimeouts :=
    .cons trivial rfl (.cons trivial rfl (.cons trivial rfl (.cons trivial rfl
      (.cons trivial rfl (.cons trivial rfl trivial)))))
  have begins : Begins Sample.key (.init .empty) (.emitEvent 0 Sample.key Sample.arguments) :=
    ⟨rfl, _, rfl⟩
  have ran : serialOutbox.run Sample.emitted Sample.sixTimeouts = some Sample.timedOut := rfl
  obtain ⟨row, member, _, segment, runs, bound, _⟩ := retry_budget Sample.key
    Sample.endpoint.pk ⟨.init .empty, [], ⟨.empty, rfl⟩, rfl⟩ begins rfl noReset ran
  obtain rfl := List.mem_singleton.mp member
  exact ⟨segment, runs, bound⟩

/-- An event that allows five attempts is posted by six runs. -/
theorem retry_budget_exceeded :
    ¬ ∀ (pk endpoint : Uuid) (start next final : Serial) (operation : Operation)
      (operations : List Operation), serialOutbox.Reachable Serial.Starts start →
      Begins pk start operation → serialOutbox.step start operation = some next →
      serialOutbox.Meets (NoReset pk) next operations →
      serialOutbox.run next operations = some final →
      ∀ row ∈ next.events.rows, row.pk = pk → ∀ segment, final.runs = next.runs ++ segment →
        postingRuns pk endpoint segment ≤ row.maxAttempts := by
  intro bounded
  have noReset : serialOutbox.Meets (NoReset Sample.key) Sample.emitted Sample.sixTimeouts :=
    .cons trivial rfl (.cons trivial rfl (.cons trivial rfl (.cons trivial rfl
      (.cons trivial rfl (.cons trivial rfl trivial)))))
  have five := bounded Sample.key Sample.endpoint.pk (.init .empty) Sample.emitted
    Sample.timedOut (.emitEvent 0 Sample.key Sample.arguments) Sample.sixTimeouts
    ⟨.init .empty, [], ⟨.empty, rfl⟩, rfl⟩ ⟨rfl, _, rfl⟩ rfl noReset rfl
    _ List.mem_cons_self rfl Sample.timedOut.runs rfl
  have six : postingRuns Sample.key Sample.endpoint.pk Sample.timedOut.runs = 6 := by decide
  rw [six] at five
  exact absurd five (by decide)

end Doorito.Common
