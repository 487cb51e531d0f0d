import Doorito.Common.Outbox
import Mathlib.Data.List.TakeWhile

/-! Laws of the delivery phase. The loop body of an event either runs to its end, with
a result that the answers to its own requests determine, or is left by an exception.
The results of the loop are those of the events before the first exception. -/

set_option autoImplicit false

namespace Doorito.Common

open Foundation

/-! ## One event -/

/-- The endpoints that an event is posted to, each with what its request meets. -/
abbrev Answers := List (WebhookEndpoint × PostOutcome)

def answers (http : Http) (endpoints : List WebhookEndpoint) (event : OutboxEvent) :
    Answers :=
  match matchingEndpoints event.eventType endpoints with
  | .ok matching => matching.map fun endpoint => (endpoint, postEvent http event endpoint)
  | .error _ => []

/-- The error text that an answer other than a 2xx response adds. -/
def failureText (answer : WebhookEndpoint × PostOutcome) : Option String :=
  match answer.2.toResult with
  | .ok result => if result.ok then none else some (answer.1.url ++ ": " ++ result.error)
  | .error _ => none

def Answers.result (given : Answers) : EventResult := collectErrors (given.filterMap failureText)

/-- The result of the event, from the answers to its own requests. -/
def resultOf (http : Http) (endpoints : List WebhookEndpoint)
    (event : OutboxEvent) : EventResult :=
  (answers http endpoints event).result

def Accepts (http : Http) (event : OutboxEvent) (endpoint : WebhookEndpoint) : Prop :=
  ∃ statusCode text, postEvent http event endpoint = .response statusCode text ∧
    200 ≤ statusCode ∧ statusCode ≤ 299

/-- The request ended with a response, an HTTPStatusError or a RequestError. -/
def Finishes (http : Http) (event : OutboxEvent) (endpoint : WebhookEndpoint) : Prop :=
  ∃ result, deliverToEndpoint http endpoint event = .ok result

section Event

variable {http : Http} {event : OutboxEvent}

theorem failureText_eq_none_iff {endpoint : WebhookEndpoint}
    (finishes : Finishes http event endpoint) :
    failureText (endpoint, postEvent http event endpoint) = none ↔
      Accepts http event endpoint := by
  obtain ⟨result, delivered⟩ := finishes
  unfold deliverToEndpoint at delivered
  unfold failureText Accepts
  cases outcome : postEvent http event endpoint with
  | response statusCode text =>
      by_cases accepted : 200 ≤ statusCode ∧ statusCode ≤ 299
      · simp [PostOutcome.toResult, accepted]
      · simp only [PostOutcome.toResult, if_neg accepted]
        simpa using accepted
  | requestError name message => simp [PostOutcome.toResult]
  | raised error =>
      rw [outcome] at delivered
      cases delivered

theorem deliverToMatching_ok_iff {endpoints : List WebhookEndpoint} {errors : List String} :
    (deliverToMatching http event endpoints).2 = .ok errors ↔
      (∀ endpoint ∈ endpoints, Finishes http event endpoint) ∧
        errors = (endpoints.map fun endpoint =>
          (endpoint, postEvent http event endpoint)).filterMap failureText := by
  induction endpoints generalizing errors with
  | nil => simp [deliverToMatching, eq_comm]
  | cons endpoint rest ih =>
      rw [List.forall_mem_cons, List.map_cons, List.filterMap_cons]
      cases answered : deliverToEndpoint http endpoint event with
      | error raised => simp [deliverToMatching, answered, Finishes]
      | ok result =>
          have text : failureText (endpoint, postEvent http event endpoint) =
              if result.ok then none else some (endpoint.url ++ ": " ++ result.error) := by
            unfold deliverToEndpoint at answered
            simp only [failureText, answered]
          have here : Finishes http event endpoint := ⟨result, answered⟩
          cases later : (deliverToMatching http event rest).2 with
          | error raised =>
              have unfinished : ¬ ∀ other ∈ rest, Finishes http event other := by
                intro finishes
                have completed := ih.mpr ⟨finishes, rfl⟩
                rw [later] at completed
                cases completed
              simp [deliverToMatching, answered, later, Except.map, unfinished]
          | ok others =>
              obtain ⟨finishes, shape⟩ := ih.mp later
              subst shape
              simp only [deliverToMatching, answered, later, Except.map, Except.ok.injEq, text]
              cases accepted : result.ok with
              | true =>
                  simp only [if_true]
                  exact ⟨fun same => ⟨⟨here, finishes⟩, same.symm⟩, fun both => both.2.symm⟩
              | false =>
                  simp only [Bool.false_eq_true, if_false]
                  exact ⟨fun same => ⟨⟨here, finishes⟩, same.symm⟩, fun both => both.2.symm⟩

variable {endpoints : List WebhookEndpoint}

/-- All requests for the event were made and ended. -/
structure PostsFinished (http : Http) (endpoints : List WebhookEndpoint)
    (event : OutboxEvent) (matching : List WebhookEndpoint) : Prop where
  before : http.interruptBefore event.pk = none
  chosen : matchingEndpoints event.eventType endpoints = .ok matching
  finishes : ∀ endpoint ∈ matching, Finishes http event endpoint

/-- The loop body runs to its end if the requests finish and no signal comes between
the last of them and the store; what it stores is determined by the answers. -/
theorem deliverEvent_ok_iff {result : EventResult} :
    (deliverEvent http endpoints event).2 = .ok result ↔
      ∃ matching, PostsFinished http endpoints event matching ∧
        (matching = [] ∨ http.interruptAfter event.pk = none) ∧
        result = resultOf http endpoints event := by
  unfold deliverEvent resultOf answers
  cases before : http.interruptBefore event.pk with
  | some raised =>
      simp only [reduceCtorEq, false_iff]
      intro stored
      obtain ⟨matching, finished, _⟩ := stored
      have undisturbed := finished.before
      rw [before] at undisturbed
      cases undisturbed
  | none =>
      cases chosen : matchingEndpoints event.eventType endpoints with
      | error raised =>
          simp only [reduceCtorEq, false_iff]
          intro stored
          obtain ⟨matching, finished, _⟩ := stored
          have selected := finished.chosen
          rw [chosen] at selected
          cases selected
      | ok matching =>
          have unique : ∀ {other}, PostsFinished http endpoints event other → other = matching :=
            fun finished => Except.ok.inj (finished.chosen.symm.trans chosen)
          cases matching with
          | nil =>
              constructor
              · intro stored
                exact ⟨[], ⟨before, chosen, by simp⟩, .inl rfl, (Except.ok.inj stored).symm⟩
              · intro stored
                obtain ⟨other, finished, _, rfl⟩ := stored
                rfl
          | cons first rest =>
              cases delivered : (deliverToMatching http event (first :: rest)).2 with
              | error raised =>
                  simp only [delivered, Except.bind, reduceCtorEq, false_iff]
                  intro stored
                  obtain ⟨other, finished, _⟩ := stored
                  obtain rfl := unique finished
                  have completed := deliverToMatching_ok_iff.mpr ⟨finished.finishes, rfl⟩
                  rw [delivered] at completed
                  cases completed
              | ok errors =>
                  obtain ⟨finishes, shape⟩ := deliverToMatching_ok_iff.mp delivered
                  simp only [delivered, Except.bind]
                  cases after : http.interruptAfter event.pk with
                  | some raised =>
                      simp only [reduceCtorEq, or_false, false_iff]
                      intro stored
                      obtain ⟨other, finished, rfl, _⟩ := stored
                      cases unique finished
                  | none =>
                      simp only [Except.ok.injEq]
                      constructor
                      · intro same
                        subst same
                        exact ⟨_, ⟨before, chosen, finishes⟩, .inr trivial, by rw [shape]; rfl⟩
                      · intro stored
                        obtain ⟨other, finished, _, rfl⟩ := stored
                        rw [shape]
                        rfl

theorem resultOf_allOk_iff {matching : List WebhookEndpoint}
    (finished : PostsFinished http endpoints event matching) :
    (resultOf http endpoints event).allOk = true ↔
      ∀ endpoint ∈ matching, Accepts http event endpoint := by
  have success : (resultOf http endpoints event).allOk = true ↔
      ∀ endpoint ∈ matching, failureText (endpoint, postEvent http event endpoint) = none := by
    simp [resultOf, answers, finished.chosen, Answers.result, collectErrors,
      List.filterMap_eq_nil_iff]
  rw [success]
  refine forall₂_congr fun endpoint member => ?_
  exact failureText_eq_none_iff (finished.finishes endpoint member)

theorem resultOf_error_ne_empty (failed : (resultOf http endpoints event).allOk = false) :
    (resultOf http endpoints event).error ≠ "" := by
  unfold resultOf Answers.result at *
  cases texts : (answers http endpoints event).filterMap failureText with
  | nil => simp [texts, collectErrors] at failed
  | cons text rest =>
      have listed : text ∈ (answers http endpoints event).filterMap failureText := by
        rw [texts]
        exact List.mem_cons_self
      obtain ⟨answer, _, shape⟩ := List.mem_filterMap.mp listed
      have named : ∃ url message, text = url ++ ": " ++ message := by
        unfold failureText at shape
        split at shape
        · split at shape <;> cases shape
          exact ⟨_, _, rfl⟩
        · cases shape
      obtain ⟨url, message, rfl⟩ := named
      simp [collectErrors, String.append_assoc, String.append_eq_empty_iff]

theorem deliverToMatching_posts {post : Post}
    (member : post ∈ (deliverToMatching http event endpoints).1) :
    ∃ endpoint ∈ endpoints, post = (event.pk, endpoint.pk) := by
  induction endpoints with
  | nil => simp [deliverToMatching] at member
  | cons endpoint rest ih =>
      cases answered : deliverToEndpoint http endpoint event with
      | error raised =>
          simp [deliverToMatching, answered] at member
          exact ⟨endpoint, by simp, member⟩
      | ok result =>
          simp only [deliverToMatching, answered, List.mem_cons] at member
          rcases member with first | later
          · exact ⟨endpoint, by simp, first⟩
          · obtain ⟨other, otherMember, shape⟩ := ih later
            exact ⟨other, by simp [otherMember], shape⟩

theorem deliverEvent_posts {post : Post}
    (member : post ∈ (deliverEvent http endpoints event).1) : post.1 = event.pk := by
  unfold deliverEvent at member
  cases before : http.interruptBefore event.pk with
  | some raised => simp [before] at member
  | none =>
      cases chosen : matchingEndpoints event.eventType endpoints with
      | error raised => simp [before, chosen] at member
      | ok matching =>
          cases matching with
          | nil => simp [before, chosen] at member
          | cons first rest =>
              simp only [before, chosen] at member
              obtain ⟨endpoint, _, rfl⟩ := deliverToMatching_posts member
              rfl

end Event

/-! ## The loop -/

def raisedBy (http : Http) (endpoints : List WebhookEndpoint)
    (event : OutboxEvent) : Option Raised :=
  match (deliverEvent http endpoints event).2 with
  | .ok _ => none
  | .error raised => some raised

def finishedEvents (http : Http) (endpoints : List WebhookEndpoint)
    (batch : List OutboxEvent) : List OutboxEvent :=
  batch.takeWhile fun event => (raisedBy http endpoints event).isNone

theorem raisedBy_eq_some_iff {http : Http} {endpoints : List WebhookEndpoint}
    {event : OutboxEvent} {raised : Raised} :
    raisedBy http endpoints event = some raised ↔
      (deliverEvent http endpoints event).2 = .error raised := by
  unfold raisedBy
  cases (deliverEvent http endpoints event).2 <;> simp

theorem raisedBy_eq_none_iff {http : Http} {endpoints : List WebhookEndpoint}
    {event : OutboxEvent} :
    raisedBy http endpoints event = none ↔
      (deliverEvent http endpoints event).2 = .ok (resultOf http endpoints event) := by
  unfold raisedBy
  cases body : (deliverEvent http endpoints event).2 with
  | error raised => simp
  | ok result =>
      obtain ⟨_, _, _, rfl⟩ := deliverEvent_ok_iff.mp body
      simp

theorem raisedBy_eq_none_iff_posts {http : Http} {endpoints : List WebhookEndpoint}
    {event : OutboxEvent} :
    raisedBy http endpoints event = none ↔
      ∃ matching, PostsFinished http endpoints event matching ∧
        (matching = [] ∨ http.interruptAfter event.pk = none) := by
  rw [raisedBy_eq_none_iff, deliverEvent_ok_iff]
  simp

section Loop

variable (http : Http) (endpoints : List WebhookEndpoint)

theorem deliverEvents_cons_of_raised {event : OutboxEvent} {raised : Raised}
    (left : raisedBy http endpoints event = some raised) (rest : List OutboxEvent) :
    deliverEvents http endpoints (event :: rest) =
      ⟨[], (deliverEvent http endpoints event).1, some raised⟩ := by
  have shape := raisedBy_eq_some_iff.mp left
  rcases body : deliverEvent http endpoints event with ⟨posts, outcome⟩
  rw [body] at shape
  cases shape
  simp only [deliverEvents, body]

theorem deliverEvents_cons_of_finished {event : OutboxEvent}
    (finished : raisedBy http endpoints event = none) (rest : List OutboxEvent) :
    deliverEvents http endpoints (event :: rest) =
      ⟨(event.pk, resultOf http endpoints event) ::
          (deliverEvents http endpoints rest).results,
        (deliverEvent http endpoints event).1 ++ (deliverEvents http endpoints rest).posts,
        (deliverEvents http endpoints rest).stopped⟩ := by
  have shape := raisedBy_eq_none_iff.mp finished
  rcases body : deliverEvent http endpoints event with ⟨posts, outcome⟩
  rw [body] at shape
  cases shape
  simp only [deliverEvents, body]

theorem deliverEvents_results (batch : List OutboxEvent) :
    (deliverEvents http endpoints batch).results =
      (finishedEvents http endpoints batch).map fun event =>
        (event.pk, resultOf http endpoints event) := by
  induction batch with
  | nil => rfl
  | cons event rest ih =>
      cases raised : raisedBy http endpoints event with
      | some error =>
          simp [deliverEvents_cons_of_raised http endpoints raised, finishedEvents, raised]
      | none =>
          simp only [finishedEvents] at ih
          simp [deliverEvents_cons_of_finished http endpoints raised, finishedEvents,
            raised, ih]

theorem deliverEvents_stopped (batch : List OutboxEvent) :
    (deliverEvents http endpoints batch).stopped =
      batch.findSome? (raisedBy http endpoints) := by
  induction batch with
  | nil => rfl
  | cons event rest ih =>
      cases raised : raisedBy http endpoints event with
      | some error => simp [deliverEvents_cons_of_raised http endpoints raised, raised]
      | none => simp [deliverEvents_cons_of_finished http endpoints raised, raised, ih]

theorem finishedEvents_sublist (batch : List OutboxEvent) :
    (finishedEvents http endpoints batch).Sublist batch :=
  List.takeWhile_sublist _

theorem raisedBy_of_mem_finishedEvents {batch : List OutboxEvent} {event : OutboxEvent}
    (member : event ∈ finishedEvents http endpoints batch) :
    raisedBy http endpoints event = none := by
  simpa using List.mem_takeWhile_imp member

/-- A run posts only events of its batch that it gets to: those it finishes and the one
whose loop body an exception leaves. -/
theorem deliverEvents_posts {batch : List OutboxEvent} {post : Post}
    (member : post ∈ (deliverEvents http endpoints batch).posts) :
    ∃ posted ∈ batch, posted.pk = post.1 ∧
      (raisedBy http endpoints posted = none → posted ∈ finishedEvents http endpoints batch) := by
  induction batch with
  | nil => simp [deliverEvents] at member
  | cons first rest ih =>
      cases raised : raisedBy http endpoints first with
      | some error =>
          rw [deliverEvents_cons_of_raised http endpoints raised] at member
          exact ⟨first, by simp, (deliverEvent_posts member).symm, by simp [raised]⟩
      | none =>
          have shape : finishedEvents http endpoints (first :: rest) =
              first :: finishedEvents http endpoints rest := by
            simp [finishedEvents, raised]
          rw [deliverEvents_cons_of_finished http endpoints raised] at member
          rw [shape]
          rcases List.mem_append.mp member with here | later
          · exact ⟨first, by simp, (deliverEvent_posts here).symm, by simp⟩
          · obtain ⟨posted, postedMember, key, finished⟩ := ih later
            exact ⟨posted, by simp [postedMember], key, fun body => by simp [finished body]⟩

variable {http endpoints} in
theorem results_error_ne_empty {batch : List OutboxEvent} {key : Uuid} {result : EventResult}
    (member : (key, result) ∈ (deliverEvents http endpoints batch).results)
    (failed : result.allOk = false) : result.error ≠ "" := by
  rw [deliverEvents_results, List.mem_map] at member
  obtain ⟨origin, _, shape⟩ := member
  cases shape
  exact resultOf_error_ne_empty failed

end Loop

theorem lookup_map_pk (events : List OutboxEvent) (value : OutboxEvent → EventResult)
    (wanted : Uuid) :
    (events.map fun event => (event.pk, value event)).lookup wanted =
      (events.find? fun event => event.pk = wanted).map value := by
  induction events with
  | nil => rfl
  | cons event rest ih =>
      by_cases same : event.pk = wanted
      · simp [same]
      · have different : (wanted == event.pk) = false := by simpa using Ne.symm same
        simp [List.lookup_cons, different, same, ih]

section Dict

variable {http : Http} {endpoints : List WebhookEndpoint} {batch : List OutboxEvent}
  {event : OutboxEvent}

theorem lookup_results_of_finished (distinct : (batch.map (·.pk)).Nodup)
    (finished : event ∈ finishedEvents http endpoints batch) :
    (deliverEvents http endpoints batch).results.lookup event.pk =
      some (resultOf http endpoints event) := by
  have within := (finishedEvents_sublist http endpoints batch).subset
  rw [deliverEvents_results, lookup_map_pk]
  cases search : (finishedEvents http endpoints batch).find?
      (fun other => other.pk = event.pk) with
  | none =>
      have absent := List.find?_eq_none.mp search event finished
      simp at absent
  | some other =>
      have key : other.pk = event.pk := by simpa using List.find?_some search
      have otherMember := within (List.mem_of_find?_eq_some search)
      rw [List.inj_on_of_nodup_map distinct otherMember (within finished) key, Option.map_some]

theorem lookup_results_of_unfinished (distinct : (batch.map (·.pk)).Nodup)
    (member : event ∈ batch) (unfinished : event ∉ finishedEvents http endpoints batch) :
    (deliverEvents http endpoints batch).results.lookup event.pk = none := by
  have within := (finishedEvents_sublist http endpoints batch).subset
  rw [deliverEvents_results, lookup_map_pk, Option.map_eq_none_iff, List.find?_eq_none]
  intro other otherFinished
  have different : other.pk ≠ event.pk := by
    intro key
    have same := List.inj_on_of_nodup_map distinct (within otherFinished) member key
    exact unfinished (same ▸ otherFinished)
  simpa using different

end Dict

end Doorito.Common
