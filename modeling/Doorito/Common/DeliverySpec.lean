import Doorito.Common.BatchDelivery

/-! The specification of a delivery run, event by event, and the refinement: with lists
of strings for the event types and no exception but the soft time limit, a run applies
the transition of a single event to the events that it finishes and to no other row. -/

set_option autoImplicit false

namespace Doorito.Common

open Foundation

/-! ## The specification -/

/-- What one recorded attempt makes of an event, given whether every matching endpoint
has accepted it. -/
structure Attempted (now : Time) (accepted : Prop) (before after : OutboxEvent) : Prop where
  frame : after = { before with
    status := after.status
    attempts := after.attempts
    deliveredAt := after.deliveredAt
    nextAttemptAt := after.nextAttemptAt
    errorMessage := after.errorMessage
    updatedAt := now }
  attempts : after.attempts = before.attempts + 1
  delivered : after.status = .delivered ↔ accepted
  failed : after.status = .failed ↔ ¬ accepted ∧ before.maxAttempts ≤ after.attempts
  pending : after.status = .pending ↔ ¬ accepted ∧ after.attempts < before.maxAttempts
  deliveredAt : accepted → after.deliveredAt = some now
  settled : after.status ≠ .pending → after.nextAttemptAt = none
  due : after.status = .pending → ∃ due, after.nextAttemptAt = some due ∧
    now + seconds (min (60 * 2 ^ (after.attempts - 1)) 3600) ≤ due ∧
    10 * (due - now) ≤ 11 * seconds (min (60 * 2 ^ (after.attempts - 1)) 3600)

/-- Every active endpoint whose list is empty or has the event's type answered 2xx. -/
def AllAccept (input : RunInput) (types : WebhookEndpoint → List String)
    (event : OutboxEvent) : Prop :=
  ∀ endpoint ∈ input.endpoints, endpoint.isActive = true →
    types endpoint = [] ∨ event.eventType ∈ types endpoint →
      Accepts input.http event endpoint

/-- Due PENDING rows, as many as there are up to the batch size, none of them twice. -/
structure FetchesDue (input : RunInput) (events : EventTable)
    (batch : List OutboxEvent) : Prop where
  distinct : batch.Nodup
  due : ∀ event ∈ batch, event ∈ events.rows ∧ event.isDue input.fetchedAt = true
  size : batch.length = min input.batchSize (events.count (·.isDue input.fetchedAt))

/-- The events of the batch up to the soft time limit. -/
def CutBySoftLimit (input : RunInput) (batch finished : List OutboxEvent) : Prop :=
  (∀ event ∈ finished, input.raises event = none) ∧
    (finished = batch ∨ ∃ event rest, batch = finished ++ event :: rest ∧
      input.raises event = some .softTimeLimitExceeded)

/-- The environment raises nothing but the soft time limit. -/
structure Http.OnlySoftLimit (http : Http) : Prop where
  post : ∀ endpoint request raised, http.post endpoint request = .raised raised →
    raised = .softTimeLimitExceeded
  before : ∀ pk raised, http.interruptBefore pk = some raised → raised = .softTimeLimitExceeded
  after : ∀ pk raised, http.interruptAfter pk = some raised → raised = .softTimeLimitExceeded

def becameCount (status : OutboxEvent.Status) (before after : EventTable) : Nat :=
  (before.rows.zip after.rows).countP fun row => row.1.status ≠ status ∧ row.2.status = status

/-! ## Backoff -/

theorem backoffDelay_mem (attempts : Nat) :
    backoffDelay attempts ∈ [60, 120, 240, 480, 960, 1920, 3600] := by
  unfold backoffDelay
  generalize attempts - 1 = doublings
  rcases lt_or_ge doublings 6 with few | many
  · have all : ∀ doublings < 6,
        min (60 * 2 ^ doublings) 3600 ∈ [60, 120, 240, 480, 960, 1920, 3600] := by decide
    exact all doublings few
  · have power : 2 ^ 6 ≤ 2 ^ doublings := Nat.pow_le_pow_right (by decide) many
    rw [Nat.min_eq_right (by omega)]
    decide

/-- In doubles a tenth of each delay is exact. -/
theorem double_tenth : ∀ delay ∈ [60, 120, 240, 480, 960, 1920, 3600],
    double ((delay : ℕ) * double (1 / 10)) = (delay / 10 : ℕ) ∧ 10 * (delay / 10) = delay ∧
      delay ≤ 3600 := by
  decide +kernel

theorem uniform_bounds {most : Nat} (fits : most < 2 ^ 53) (draw : Draw) :
    0 ≤ uniform 0 most draw ∧ uniform 0 most draw ≤ most := by
  obtain ⟨low, high⟩ := draw.property
  have wide : (most : ℚ) < 2 ^ 53 := by exact_mod_cast fits
  have share : (most : ℚ) * draw.val ≤ most := mul_le_of_le_one_right (Nat.cast_nonneg _) high
  have shareLow : (0 : ℚ) ≤ most * draw.val := mul_nonneg (Nat.cast_nonneg _) low
  have first : 0 ≤ double (most * draw.val) := by
    exact_mod_cast le_double (share.trans_lt wide) (by exact_mod_cast shareLow)
  have second : double (most * draw.val) ≤ most := by
    exact_mod_cast double_le (share.trans_lt wide) (by exact_mod_cast share)
  simp only [uniform, sub_zero, double_natCast fits, zero_add]
  constructor
  · exact_mod_cast le_double (second.trans_lt wide) (by exact_mod_cast first)
  · exact_mod_cast double_le (second.trans_lt wide) (by exact_mod_cast second)

theorem retrySeconds_bounds (attempts : Nat) (draw : Draw) :
    (backoffDelay attempts : ℚ) ≤ retrySeconds attempts draw ∧
      retrySeconds attempts draw ≤ (backoffDelay attempts + backoffDelay attempts / 10 : ℕ) := by
  obtain ⟨tenth, _, small⟩ := double_tenth _ (backoffDelay_mem attempts)
  obtain ⟨low, high⟩ := uniform_bounds (show backoffDelay attempts / 10 < 2 ^ 53 by omega) draw
  have most : (backoffDelay attempts : ℚ) + uniform 0 (backoffDelay attempts / 10 : ℕ) draw ≤
      (backoffDelay attempts + backoffDelay attempts / 10 : ℕ) := by
    push_cast at high ⊢
    linarith
  have fits : (backoffDelay attempts : ℚ) + uniform 0 (backoffDelay attempts / 10 : ℕ) draw <
      2 ^ 53 := by
    refine most.trans_lt ?_
    have wide : backoffDelay attempts + backoffDelay attempts / 10 < 2 ^ 53 := by omega
    exact_mod_cast wide
  simp only [retrySeconds, tenth]
  constructor
  · exact_mod_cast le_double fits (by push_cast; linarith)
  · exact_mod_cast double_le fits (by exact_mod_cast most)

theorem timedelta_bounds {low high : ℤ} {secondCount : ℚ} (least : (low : ℚ) ≤ secondCount)
    (most : secondCount ≤ high) :
    seconds low ≤ timedelta secondCount ∧ timedelta secondCount ≤ seconds high := by
  have below := Int.floor_le secondCount
  have above := Int.lt_floor_add_one secondCount
  have fits : (secondCount - ⌊secondCount⌋) * 1000000 < 2 ^ 53 := by linarith
  have rest : 0 ≤ roundHalfEven (double ((secondCount - ⌊secondCount⌋) * 1000000)) :=
    le_roundHalfEven (le_double fits (by push_cast; linarith))
  constructor
  · have whole : low ≤ ⌊secondCount⌋ := Int.le_floor.mpr least
    simp only [seconds, timedelta]
    linarith
  · rcases (Int.floor_le_iff.mpr (by linarith : secondCount < high + 1)).lt_or_eq with less | same
    · have part : roundHalfEven (double ((secondCount - ⌊secondCount⌋) * 1000000)) ≤ 1000000 :=
        roundHalfEven_le (double_le fits (by push_cast; linarith))
      simp only [seconds, timedelta]
      linarith
    · have part : roundHalfEven (double ((secondCount - ⌊secondCount⌋) * 1000000)) ≤ 0 := by
        refine roundHalfEven_le (double_le fits ?_)
        rw [same]
        push_cast
        linarith
      simp only [seconds, timedelta]
      linarith

theorem timedelta_retrySeconds_bounds (attempts : Nat) (draw : Draw) :
    seconds (backoffDelay attempts) ≤ timedelta (retrySeconds attempts draw) ∧
      10 * timedelta (retrySeconds attempts draw) ≤ 11 * seconds (backoffDelay attempts) := by
  obtain ⟨low, high⟩ := retrySeconds_bounds attempts draw
  obtain ⟨_, whole, _⟩ := double_tenth _ (backoffDelay_mem attempts)
  obtain ⟨least, most⟩ := timedelta_bounds (by exact_mod_cast low) (by exact_mod_cast high)
  refine ⟨least, ?_⟩
  calc 10 * timedelta (retrySeconds attempts draw)
      ≤ 10 * seconds (backoffDelay attempts + backoffDelay attempts / 10 : ℕ) := by linarith
    _ = 11 * seconds (backoffDelay attempts) := by
      have shares : 10 * ((backoffDelay attempts / 10 : ℕ) : ℤ) = backoffDelay attempts := by
        exact_mod_cast whole
      simp only [seconds, Nat.cast_add]
      linarith

/-! ## Endpoints -/

section Endpoints

variable {types : WebhookEndpoint → List String} {eventType : String}

theorem contains?_strings (text : String) (items : List String) :
    (Json.array (items.map .string)).contains? text = some (decide (text ∈ items)) := by
  simp only [Json.contains?, List.any_map, Option.some.injEq]
  rw [Bool.eq_iff_iff]
  simp

theorem matches_of_list {endpoint : WebhookEndpoint}
    (list : endpoint.eventTypes = .array ((types endpoint).map .string)) :
    endpoint.matches eventType =
      .ok (decide (types endpoint = [] ∨ eventType ∈ types endpoint)) := by
  unfold WebhookEndpoint.matches
  rw [list, contains?_strings]
  cases empty : types endpoint with
  | nil => simp [Json.truthy]
  | cons first rest => simp [Json.truthy]

theorem matchingEndpoints_of_lists {endpoints : List WebhookEndpoint}
    (lists : ∀ endpoint ∈ endpoints,
      endpoint.eventTypes = .array ((types endpoint).map .string)) :
    matchingEndpoints eventType endpoints =
      .ok (endpoints.filter fun endpoint =>
        types endpoint = [] ∨ eventType ∈ types endpoint) := by
  induction endpoints with
  | nil => rfl
  | cons endpoint rest ih =>
      rw [List.forall_mem_cons] at lists
      rw [matchingEndpoints, matches_of_list lists.1, ih lists.2]
      simp only [Except.map, List.filter_cons]

end Endpoints

/-! ## Soft limit -/

section SoftLimit

variable {input : RunInput} {types : WebhookEndpoint → List String}

theorem deliverToMatching_error {http : Http} {event : OutboxEvent} {raised : Raised}
    {endpoints : List WebhookEndpoint}
    (left : (deliverToMatching http event endpoints).2 = .error raised) :
    ∃ endpoint ∈ endpoints, postEvent http event endpoint = .raised raised := by
  induction endpoints with
  | nil => cases left
  | cons endpoint rest ih =>
      cases answered : deliverToEndpoint http endpoint event with
      | error other =>
          simp only [deliverToMatching, answered, Except.error.injEq] at left
          subst left
          refine ⟨endpoint, List.mem_cons_self, ?_⟩
          unfold deliverToEndpoint PostOutcome.toResult at answered
          split at answered
          · split at answered <;> cases answered
          · cases answered
          · next outcome =>
            cases answered
            exact outcome
      | ok result =>
          simp only [deliverToMatching, answered] at left
          cases later : (deliverToMatching http event rest).2 with
          | ok errors => simp [later, Except.map] at left
          | error other =>
              simp only [later, Except.map, Except.error.injEq] at left
              subst left
              obtain ⟨found, member, outcome⟩ := ih later
              exact ⟨found, List.mem_cons_of_mem _ member, outcome⟩

theorem raises_eq_soft
    (lists : ∀ endpoint ∈ input.endpoints, endpoint.isActive = true →
      endpoint.eventTypes = .array ((types endpoint).map .string))
    (softOnly : input.http.OnlySoftLimit) {event : OutboxEvent} {raised : Raised}
    (left : input.raises event = some raised) : raised = .softTimeLimitExceeded := by
  have activeLists : ∀ endpoint ∈ activeEndpoints input.endpoints,
      endpoint.eventTypes = .array ((types endpoint).map .string) := by
    intro endpoint member
    obtain ⟨listed, active⟩ := List.mem_filter.mp member
    exact lists endpoint listed active
  have body := raisedBy_eq_some_iff.mp left
  unfold deliverEvent at body
  cases before : input.http.interruptBefore event.pk with
  | some interrupt =>
      simp only [before, Except.error.injEq] at body
      exact body ▸ softOnly.before _ _ before
  | none =>
      simp only [before, matchingEndpoints_of_lists activeLists] at body
      split at body
      · next impossible => cases impossible
      · cases body
      · next first rest _ =>
        cases delivered : (deliverToMatching input.http event (first :: rest)).2 with
        | error other =>
            simp only [delivered, Except.bind, Except.error.injEq] at body
            obtain ⟨endpoint, _, outcome⟩ := deliverToMatching_error delivered
            exact body ▸ softOnly.post _ _ _ outcome
        | ok errors =>
            simp only [delivered, Except.bind] at body
            cases after : input.http.interruptAfter event.pk with
            | none => simp [after] at body
            | some interrupt =>
                simp only [after, Except.error.injEq] at body
                exact body ▸ softOnly.after _ _ after

theorem cutBySoftLimit_finished
    (soft : ∀ event raised, input.raises event = some raised →
      raised = .softTimeLimitExceeded) (batch : List OutboxEvent) :
    CutBySoftLimit input batch (input.finished batch) := by
  refine ⟨fun _ member => raisedBy_of_mem_finishedEvents _ _ member, ?_⟩
  induction batch with
  | nil => exact .inl rfl
  | cons event rest ih =>
      cases body : input.raises event with
      | some raised =>
          have nothing : input.finished (event :: rest) = [] := by
            have left : raisedBy input.http (activeEndpoints input.endpoints) event =
              some raised := body
            simp [RunInput.finished, finishedEvents, left]
          rw [nothing]
          exact .inr ⟨event, rest, rfl, by rw [body, soft event raised body]⟩
      | none =>
          have first : input.finished (event :: rest) = event :: input.finished rest := by
            have passed : raisedBy input.http (activeEndpoints input.endpoints) event =
              none := body
            simp [RunInput.finished, finishedEvents, passed]
          rw [first]
          rcases ih with whole | ⟨cut, after, split, limit⟩
          · exact .inl (by rw [whole])
          · exact .inr ⟨cut, after, by rw [List.cons_append, ← split], limit⟩

end SoftLimit

/-! ## Refinement -/

section Refinement

variable {input : RunInput} {events : EventTable}

theorem fetchesDue_batch : FetchesDue input events (input.batch events) := by
  have distinct := input.batch_nodup events
  refine ⟨distinct.of_map, ?_, ?_⟩
  · intro event member
    obtain ⟨row, due, _⟩ := mem_fetchPending member
    exact ⟨row, due⟩
  · simp [RunInput.batch, fetchPending, Table.count, List.countP_eq_length_filter,
      (input.order.perm _).length_eq]

theorem result_allOk_iff {types : WebhookEndpoint → List String}
    (lists : ∀ endpoint ∈ input.endpoints, endpoint.isActive = true →
      endpoint.eventTypes = .array ((types endpoint).map .string))
    {batch : List OutboxEvent} {event : OutboxEvent} (done : event ∈ input.finished batch) :
    (input.result event).allOk = true ↔ AllAccept input types event := by
  have body := raisedBy_of_mem_finishedEvents _ _ done
  obtain ⟨matching, finished, _⟩ := raisedBy_eq_none_iff_posts.mp body
  rw [RunInput.result, resultOf_allOk_iff finished]
  have activeLists : ∀ endpoint ∈ activeEndpoints input.endpoints,
      endpoint.eventTypes = .array ((types endpoint).map .string) := by
    intro endpoint member
    obtain ⟨listed, active⟩ := List.mem_filter.mp member
    exact lists endpoint listed active
  have chosen := finished.chosen
  rw [matchingEndpoints_of_lists activeLists, Except.ok.injEq] at chosen
  subst chosen
  simp only [AllAccept, activeEndpoints, List.mem_filter, decide_eq_true_eq, and_imp]

theorem attempted_recorded {accepted : Prop} {event : OutboxEvent}
    (success : (input.result event).allOk = true ↔ accepted)
    (waiting : event.status = .pending) :
    Attempted input.updatedAt accepted event (input.recorded event event) := by
  have shape := applyResult_cases input.updatedAt (input.random event.pk)
    (input.result event) event
  have attempts : (input.recorded event event).attempts = event.attempts + 1 := by simp
  rcases shape with
    ⟨ok, status, delivered, next, _⟩ | ⟨refused, spent, status, _, next, _⟩ |
    ⟨refused, left, status, _, next, _⟩
  · have accepted := success.mp ok
    refine ⟨rfl, attempts, ?_, ?_, ?_, ?_, ?_, ?_⟩ <;>
      simp [RunInput.recorded, RunInput.applied, status, delivered, next, accepted]
  · have rejected : ¬ accepted := by simp [← success, refused]
    refine ⟨rfl, attempts, ?_, ?_, ?_, ?_, ?_, ?_⟩ <;>
      simp [RunInput.recorded, RunInput.applied, status, next, rejected, spent]
  · have rejected : ¬ accepted := by simp [← success, refused]
    obtain ⟨soonest, latest⟩ := timedelta_retrySeconds_bounds (event.attempts + 1)
      (input.random event.pk)
    refine ⟨rfl, attempts, ?_, ?_, ?_, ?_, ?_, ?_⟩ <;>
      simp [RunInput.recorded, RunInput.applied, status, next, rejected, waiting, left]
    exact ⟨by simpa [backoffDelay] using soonest, by simpa [backoffDelay] using latest⟩

def Verdict.status : Verdict → OutboxEvent.Status
  | .delivered => .delivered
  | .failed => .failed
  | .retry => .pending

theorem Verdict.status_injective : Function.Injective Verdict.status := by
  intro left right same
  cases left <;> cases right <;> first | rfl | cases same

theorem status_recorded {event : OutboxEvent} (waiting : event.status = .pending)
    (row : OutboxEvent) :
    (input.recorded event row).status =
      (verdict (input.result event) (event.attempts + 1) event.maxAttempts).status := by
  rw [RunInput.recorded, RunInput.applied, saveOnto_status, applyResult]
  cases verdict (input.result event) (event.attempts + 1) event.maxAttempts with
  | delivered => rfl
  | failed => rfl
  | retry => exact waiting

theorem countP_zip_map {Row : Type} (rows : List Row) (change : Row → Row)
    (holds : Row × Row → Bool) :
    (rows.zip (rows.map change)).countP holds = rows.countP fun row => holds (row, change row) := by
  induction rows with
  | nil => rfl
  | cons row rest ih => simp [List.countP_cons, ih]

theorem becameCount_eq {after : EventTable} (branch : Verdict) (final : branch ≠ .retry)
    (rows : after.rows = events.rows.map (updateRow input.updatedAt input.random
      (input.delivery (input.batch events)).results (input.batch events))) :
    becameCount branch.status events after = (input.batch events).countP fun event =>
      branchOf (input.delivery (input.batch events)).results event = some branch := by
  have distinct := input.batch_nodup events
  rw [becameCount, rows, countP_zip_map, List.countP_eq_length_filter,
    List.countP_eq_length_filter]
  refine List.Perm.length_eq ?_
  refine (List.perm_ext_iff_of_nodup (events.unique.of_map.filter _)
    (distinct.of_map.filter _)).mpr fun row => ?_
  have notPending : branch.status ≠ .pending := by
    intro same
    exact final (Verdict.status_injective same)
  simp only [List.mem_filter, decide_eq_true_eq]
  constructor
  · intro brought
    obtain ⟨member, different, became⟩ := brought
    -- The row has changed, so it is the row of a finished event, which is the event.
    by_cases finished : ∀ event ∈ input.finished (input.batch events), event.pk ≠ row.pk
    · rw [updateRow_of_unfinished distinct finished] at became
      exact absurd became different
    push Not at finished
    obtain ⟨event, done, key⟩ := finished
    have fetched := finished_subset done
    obtain ⟨eventRow, due⟩ := fetchesDue_batch.due event fetched
    obtain rfl := Table.eq_of_key_eq eventRow member key
    rw [updateRow_of_finished distinct done rfl, status_recorded (isDue_iff.mp due).1] at became
    refine ⟨fetched, ?_⟩
    rw [branchOf, (lookup_delivery_results distinct fetched).2 done, Option.map_some,
      Verdict.status_injective became]
  · intro both
    obtain ⟨fetched, taken⟩ := both
    obtain ⟨member, due⟩ := fetchesDue_batch.due row fetched
    have waiting := (isDue_iff.mp due).1
    have done : row ∈ input.finished (input.batch events) := by
      refine (lookup_delivery_results distinct fetched).1.mp ?_
      intro none
      simp [branchOf, none] at taken
    rw [branchOf, (lookup_delivery_results distinct fetched).2 done, Option.map_some,
      Option.some.injEq] at taken
    refine ⟨member, ?_, ?_⟩
    · rw [waiting]
      exact notPending.symm
    · rw [updateRow_of_finished distinct done rfl, status_recorded waiting, taken]

/-- The run makes the single transition of every event that it gets through, leaves every
other row as it was, and counts what it did. -/
structure RefinesSpec (input : RunInput) (events : EventTable)
    (types : WebhookEndpoint → List String) : Prop where
  fetches : FetchesDue input events (input.batch events)
  cut : CutBySoftLimit input (input.batch events) (input.finished (input.batch events))
  rows : List.Forall₂ (fun before after =>
      (before ∈ input.finished (input.batch events) →
        Attempted input.updatedAt (AllAccept input types before) before after) ∧
      (before ∉ input.finished (input.batch events) → after = before))
    events.rows (processPendingEvents input events).events.rows
  counts : ∃ summary, (processPendingEvents input events).returned = .ok summary ∧
    summary.processed = (input.finished (input.batch events)).length ∧
    summary.delivered =
      becameCount .delivered events (processPendingEvents input events).events ∧
    summary.failed = becameCount .failed events (processPendingEvents input events).events ∧
    summary.remaining =
      (processPendingEvents input events).events.count (·.status = .pending)

theorem refinesSpec_of_canCommit {types : WebhookEndpoint → List String}
    (lists : ∀ endpoint ∈ input.endpoints, endpoint.isActive = true →
      endpoint.eventTypes = .array ((types endpoint).map .string))
    (softOnly : input.http.OnlySoftLimit)
    (can : input.CanCommit (input.batch events) events) : RefinesSpec input events types := by
  have distinct := input.batch_nodup events
  obtain ⟨summary, returned, rows, processed, delivered, failed, remaining⟩ :=
    deliverAndUpdate_of_canCommit distinct can
  rw [← processPendingEvents_eq] at returned rows remaining
  refine ⟨fetchesDue_batch, cutBySoftLimit_finished (fun _ _ => raises_eq_soft lists softOnly) _,
    ?_, summary, returned, processed, ?_, ?_, remaining⟩
  · rw [rows, List.forall₂_map_right_iff, List.forall₂_same]
    intro row member
    constructor
    · intro done
      rw [updateRow_of_finished distinct done rfl]
      exact attempted_recorded (result_allOk_iff lists done) (mem_rows_of_finished done).2
    · intro unfinished
      refine updateRow_of_unfinished distinct ?_
      intro event done key
      exact unfinished (Table.eq_of_key_eq (mem_rows_of_finished done).1 member key ▸ done)
  · rw [delivered]
    exact (becameCount_eq .delivered (by decide) rows).symm
  · rw [failed]
    exact (becameCount_eq .failed (by decide) rows).symm

/-- With lists of strings for the event types and no exception but the soft time limit, a run
without concurrent writers refines the specification exactly if the database takes the results
of the events that it finishes. -/
theorem processPendingEvents_refines_spec_iff (input : RunInput) (events : EventTable)
    (types : WebhookEndpoint → List String)
    (lists : ∀ endpoint ∈ input.endpoints, endpoint.isActive = true →
      endpoint.eventTypes = .array ((types endpoint).map .string))
    (softOnly : input.http.OnlySoftLimit) :
    RefinesSpec input events types ↔ input.ResultsTaken (input.batch events) := by
  have softly : input.StopsSoftly (input.batch events) := by
    intro raised first
    obtain ⟨event, _, left⟩ := List.exists_of_findSome?_eq_some first
    exact raises_eq_soft lists softOnly left
  rw [← canCommit_iff_of_stopsSoftly softly]
  constructor
  · intro refines
    obtain ⟨summary, returned, _⟩ := refines.counts
    rw [processPendingEvents_eq] at returned
    exact (returned_ok_iff (input.batch_nodup events)).mp ⟨summary, returned⟩
  · exact refinesSpec_of_canCommit lists softOnly

end Refinement

namespace Sample

theorem endpoint_lists : ∀ listed ∈ [endpoint], listed.isActive = true →
    listed.eventTypes = .array (([] : List String).map .string) := by
  intro listed member _
  obtain rfl := List.mem_singleton.mp member
  rfl

/-- An endpoint answers with an error page that has a null character in it. -/
def nullAnswerRun : RunInput :=
  { softLimitRun with
    http :=
      { answering 500 with
        post := fun _ _ => .response 500 (String.singleton (Char.ofNat 0)) } }

end Sample

/-- A run over two events that the soft time limit reaches after the first. -/
theorem processPendingEvents_refines_spec_iff_softLimit :
    RefinesSpec Sample.softLimitRun Sample.twoEvents (fun _ => []) := by
  have softOnly : Sample.softLimitRun.http.OnlySoftLimit := by
    refine ⟨?_, ?_, ?_⟩
    · intro endpoint request raised answered
      cases answered
    · intro pk raised signal
      simp only [Sample.softLimitRun] at signal
      split at signal <;> cases signal
      rfl
    · intro pk raised signal
      cases signal
  refine (processPendingEvents_refines_spec_iff Sample.softLimitRun Sample.twoEvents
    (fun _ => []) Sample.endpoint_lists softOnly).mpr ?_
  intro event done
  have only : Sample.softLimitRun.finished (Sample.softLimitRun.batch Sample.twoEvents) =
      [Sample.event] := rfl
  rw [only, List.mem_singleton] at done
  rw [done]
  rfl

/-- PostgreSQL refuses the text of the answer, and nothing of the run is recorded. -/
theorem spec_not_refined_nullAnswer :
    ¬ ∀ (input : RunInput) (events : EventTable) (types : WebhookEndpoint → List String),
      (∀ endpoint ∈ input.endpoints, endpoint.isActive = true →
        endpoint.eventTypes = .array ((types endpoint).map .string)) →
      input.http.OnlySoftLimit → RefinesSpec input events types := by
  intro refines
  have softOnly : Sample.nullAnswerRun.http.OnlySoftLimit := by
    refine ⟨?_, ?_, ?_⟩
    · intro endpoint request raised answered
      cases answered
    · intro pk raised signal
      cases signal
    · intro pk raised signal
      cases signal
  obtain ⟨summary, returned, _⟩ := (refines Sample.nullAnswerRun Sample.twoEvents (fun _ => [])
    Sample.endpoint_lists softOnly).counts
  cases returned

end Doorito.Common
