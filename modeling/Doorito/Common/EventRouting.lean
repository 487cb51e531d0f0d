import Doorito.Common.BatchDelivery

/-! Which endpoints an event is posted to. The match tests the truth value of the column and
then membership, so only for some shapes of the column it is a match by event type. -/

set_option autoImplicit false

namespace Doorito.Common

open Foundation

def Json.isString (text : String) : Json → Bool
  | .string value => value = text
  | .null | .bool _ | .number _ _ | .array _ | .object _ => false

/-- No types at all, or a list that has the type as an element. -/
def Json.names (eventType : String) : Json → Bool
  | .null => true
  | .array items => items.isEmpty || items.any (·.isString eventType)
  | .bool _ | .number _ _ | .string _ | .object _ => false

/-- A column whose truth value and members amount to a match by event type. -/
def Json.matchesByName (eventType : String) : Json → Bool
  | .null | .array _ => true
  | .bool _ | .number _ _ => false
  | .string value => value ≠ "" && !value.toList.tails.any eventType.toList.isPrefixOf
  | .object members => !members.isEmpty && !members.any fun member => member.1 = eventType

/-- The match is evaluated to what the column names. -/
def WebhookEndpoint.MatchesByName (endpoint : WebhookEndpoint) (eventType : String) : Prop :=
  endpoint.matches eventType = .ok (endpoint.eventTypes.names eventType)

theorem contains?_array (text : String) (items : List Json) :
    (Json.array items).contains? text = some (items.any (·.isString text)) := by
  rw [Json.contains?]
  congr 2
  funext item
  cases item <;> rfl

theorem matchesByName_iff {endpoint : WebhookEndpoint} {eventType : String} :
    endpoint.MatchesByName eventType ↔ endpoint.eventTypes.matchesByName eventType = true := by
  unfold WebhookEndpoint.MatchesByName WebhookEndpoint.matches
  cases endpoint.eventTypes with
  | null => simp [Json.truthy, Json.names, Json.matchesByName]
  | bool value => cases value <;> simp [Json.truthy, Json.contains?, Json.names, Json.matchesByName]
  | number mantissa exponent =>
      by_cases zero : mantissa = 0 <;>
        simp [Json.truthy, Json.contains?, Json.names, Json.matchesByName, zero]
  | string value =>
      by_cases empty : value = "" <;>
        simp [Json.truthy, Json.contains?, Json.names, Json.matchesByName, empty]
  | array items =>
      cases items <;> simp [Json.truthy, contains?_array, Json.names, Json.matchesByName]
  | object members =>
      cases members <;> simp [Json.truthy, Json.contains?, Json.names, Json.matchesByName]

/-! ## Requests that are owed -/

section Owed

variable (http : Http) (endpoints : List WebhookEndpoint)

def subscribers (event : OutboxEvent) : List WebhookEndpoint :=
  endpoints.filter (·.eventTypes.names event.eventType)

/-- No exception leaves the loop body of the event. -/
structure Completes (event : OutboxEvent) : Prop where
  before : http.interruptBefore event.pk = none
  finishes : ∀ endpoint ∈ subscribers endpoints event, Finishes http event endpoint
  after : subscribers endpoints event = [] ∨ http.interruptAfter event.pk = none

/-- No exception comes before the last request of the event. -/
structure SendsAll (event : OutboxEvent) : Prop where
  before : http.interruptBefore event.pk = none
  finishes : ∀ endpoint ∈ (subscribers endpoints event).dropLast, Finishes http event endpoint

/-- No exception comes before the last request of the batch. -/
def Undisturbed : List OutboxEvent → Prop
  | [] => True
  | event :: rest =>
      (subscribers endpoints event ≠ [] → SendsAll http endpoints event) ∧
        ((∃ later ∈ rest, subscribers endpoints later ≠ []) → Completes http endpoints event) ∧
        Undisturbed rest

end Owed

section Requests

variable {http : Http} {endpoints : List WebhookEndpoint} {event : OutboxEvent}

theorem matchingEndpoints_of_matchesByName
    (byName : ∀ endpoint ∈ endpoints, endpoint.MatchesByName event.eventType) :
    matchingEndpoints event.eventType endpoints = .ok (subscribers endpoints event) := by
  induction endpoints with
  | nil => rfl
  | cons endpoint rest ih =>
      rw [List.forall_mem_cons] at byName
      rw [matchingEndpoints, byName.1, ih byName.2]
      simp only [Except.map, subscribers, List.filter_cons]

theorem raisedBy_eq_none_iff_completes
    (byName : ∀ endpoint ∈ endpoints, endpoint.MatchesByName event.eventType) :
    raisedBy http endpoints event = none ↔ Completes http endpoints event := by
  have chosen := matchingEndpoints_of_matchesByName byName
  rw [raisedBy_eq_none_iff_posts]
  constructor
  · intro finished
    obtain ⟨matching, posts, after⟩ := finished
    obtain rfl : subscribers endpoints event = matching :=
      Except.ok.inj (chosen.symm.trans posts.chosen)
    exact ⟨posts.before, posts.finishes, after⟩
  · intro completes
    exact ⟨_, ⟨completes.before, chosen, completes.finishes⟩, completes.after⟩

/-- The requests of the event are those to the endpoints before the first one that does not
finish, and the one to this endpoint. -/
theorem deliverToMatching_posts_all_iff (distinct : (endpoints.map (·.pk)).Nodup) :
    (∀ endpoint ∈ endpoints, (event.pk, endpoint.pk) ∈ (deliverToMatching http event endpoints).1) ↔
      ∀ endpoint ∈ endpoints.dropLast, Finishes http event endpoint := by
  induction endpoints with
  | nil => simp
  | cons endpoint rest ih =>
      rw [List.map_cons, List.nodup_cons] at distinct
      have others : ∀ other ∈ rest, (event.pk, other.pk) ≠ (event.pk, endpoint.pk) := by
        intro other member same
        exact distinct.1 (List.mem_map.mpr ⟨other, member, congrArg Prod.snd same⟩)
      cases answered : deliverToEndpoint http endpoint event with
      | error raised =>
          have unfinished : ¬ Finishes http event endpoint := by
            intro finishes
            obtain ⟨result, ok⟩ := finishes
            rw [answered] at ok
            cases ok
          cases rest with
          | nil => simp [deliverToMatching, answered]
          | cons second later =>
              refine iff_of_false ?_ (fun finishes => unfinished (finishes _ List.mem_cons_self))
              intro posted
              have listed := posted second (List.mem_cons_of_mem _ List.mem_cons_self)
              simp only [deliverToMatching, answered, List.mem_singleton] at listed
              exact others second List.mem_cons_self listed
      | ok result =>
          have finishes : Finishes http event endpoint := ⟨result, answered⟩
          have requests : (∀ other ∈ endpoint :: rest, (event.pk, other.pk) ∈
              (deliverToMatching http event (endpoint :: rest)).1) ↔
              ∀ other ∈ rest, (event.pk, other.pk) ∈ (deliverToMatching http event rest).1 := by
            rw [List.forall_mem_cons]
            simp only [deliverToMatching, answered, List.mem_cons, true_or, true_and]
            exact forall₂_congr fun other member => or_iff_right (others other member)
          rw [requests, ih distinct.2]
          cases rest with
          | nil => simp
          | cons second later =>
              rw [List.dropLast_cons_of_ne_nil (List.cons_ne_nil _ _), List.forall_mem_cons,
                and_iff_right finishes]

variable (byName : ∀ endpoint ∈ endpoints, endpoint.MatchesByName event.eventType)

include byName in
theorem deliverEvent_posts_eq (undisturbed : http.interruptBefore event.pk = none) :
    (deliverEvent http endpoints event).1 =
      (deliverToMatching http event (subscribers endpoints event)).1 := by
  rw [deliverEvent, undisturbed]
  simp only [matchingEndpoints_of_matchesByName byName]
  cases subscribers endpoints event with
  | nil => rfl
  | cons first rest => rfl

include byName in
theorem deliverEvent_posts_all_iff (distinct : (endpoints.map (·.pk)).Nodup) :
    (∀ endpoint ∈ subscribers endpoints event,
        (event.pk, endpoint.pk) ∈ (deliverEvent http endpoints event).1) ↔
      (subscribers endpoints event ≠ [] → SendsAll http endpoints event) := by
  have fewer : ((subscribers endpoints event).map (·.pk)).Nodup :=
    distinct.sublist (List.filter_sublist.map _)
  cases before : http.interruptBefore event.pk with
  | some raised =>
      simp only [deliverEvent, before, List.not_mem_nil]
      constructor
      · intro none some
        exact absurd (List.eq_nil_iff_forall_not_mem.mpr none) some
      · intro sends endpoint member
        have undisturbed := (sends (List.ne_nil_of_mem member)).before
        rw [before] at undisturbed
        cases undisturbed
  | none =>
      rw [deliverEvent_posts_eq byName before, deliverToMatching_posts_all_iff fewer]
      constructor
      · intro finishes _
        exact ⟨before, finishes⟩
      · intro sends endpoint member
        exact (sends (List.ne_nil_of_mem (List.mem_of_mem_dropLast member))).finishes
          endpoint member

include byName in
/-- Only subscribers are posted to. -/
theorem subscribes_of_posted {endpoint : WebhookEndpoint}
    (posted : (event.pk, endpoint.pk) ∈ (deliverEvent http endpoints event).1) :
    ∃ subscriber ∈ subscribers endpoints event, subscriber.pk = endpoint.pk := by
  cases before : http.interruptBefore event.pk with
  | some raised => simp [deliverEvent, before] at posted
  | none =>
      rw [deliverEvent_posts_eq byName before] at posted
      obtain ⟨subscriber, member, same⟩ := deliverToMatching_posts posted
      exact ⟨subscriber, member, (congrArg Prod.snd same).symm⟩

end Requests

section Batch

variable {http : Http} {endpoints : List WebhookEndpoint} {batch : List OutboxEvent}

theorem mem_deliverEvents_cons_posts {event : OutboxEvent} {rest : List OutboxEvent} {post : Post} :
    post ∈ (deliverEvents http endpoints (event :: rest)).posts ↔
      post ∈ (deliverEvent http endpoints event).1 ∨
        raisedBy http endpoints event = none ∧
          post ∈ (deliverEvents http endpoints rest).posts := by
  cases raised : raisedBy http endpoints event with
  | some error =>
      rw [deliverEvents_cons_of_raised http endpoints raised]
      simp
  | none =>
      rw [deliverEvents_cons_of_finished http endpoints raised]
      simp

/-- The first event of a batch and the others are posted under different keys. -/
theorem cons_posts_iff {event : OutboxEvent} {rest : List OutboxEvent}
    (distinct : ((event :: rest).map (·.pk)).Nodup) :
    (∀ endpoint : Uuid,
      (event.pk, endpoint) ∈ (deliverEvents http endpoints (event :: rest)).posts ↔
        (event.pk, endpoint) ∈ (deliverEvent http endpoints event).1) ∧
    ∀ later ∈ rest, ∀ endpoint : Uuid,
      (later.pk, endpoint) ∈ (deliverEvents http endpoints (event :: rest)).posts ↔
        raisedBy http endpoints event = none ∧
          (later.pk, endpoint) ∈ (deliverEvents http endpoints rest).posts := by
  rw [List.map_cons, List.nodup_cons] at distinct
  constructor
  · intro endpoint
    rw [mem_deliverEvents_cons_posts]
    refine or_iff_left ?_
    intro both
    obtain ⟨posted, member, key, _⟩ := deliverEvents_posts http endpoints both.2
    exact distinct.1 (List.mem_map.mpr ⟨posted, member, key⟩)
  · intro later member endpoint
    rw [mem_deliverEvents_cons_posts]
    refine or_iff_right ?_
    intro own
    exact distinct.1 (List.mem_map.mpr ⟨later, member, deliverEvent_posts own⟩)

/-- Every request that is owed is made if and only if nothing raises before the last one. -/
theorem deliverEvents_posts_all_iff (distinct : (batch.map (·.pk)).Nodup)
    (endpointsDistinct : (endpoints.map (·.pk)).Nodup)
    (byName : ∀ event ∈ batch, ∀ endpoint ∈ endpoints, endpoint.MatchesByName event.eventType) :
    (∀ event ∈ batch, ∀ endpoint ∈ subscribers endpoints event,
        (event.pk, endpoint.pk) ∈ (deliverEvents http endpoints batch).posts) ↔
      Undisturbed http endpoints batch := by
  induction batch with
  | nil => simp [Undisturbed]
  | cons event rest ih =>
      obtain ⟨own, others⟩ := cons_posts_iff distinct
      rw [List.map_cons, List.nodup_cons] at distinct
      rw [List.forall_mem_cons] at byName
      rw [List.forall_mem_cons, Undisturbed, ← ih distinct.2 byName.2,
        ← deliverEvent_posts_all_iff byName.1 endpointsDistinct,
        ← raisedBy_eq_none_iff_completes byName.1]
      refine and_congr (forall₂_congr fun endpoint _ => own endpoint.pk) ?_
      constructor
      · intro posted
        refine ⟨?_, ?_⟩
        · intro owed
          obtain ⟨later, member, some⟩ := owed
          obtain ⟨endpoint, subscribes⟩ := List.exists_mem_of_ne_nil _ some
          exact ((others later member endpoint.pk).mp
            (posted later member endpoint subscribes)).1
        · intro later member endpoint subscribes
          exact ((others later member endpoint.pk).mp
            (posted later member endpoint subscribes)).2
      · intro conditions later member endpoint subscribes
        refine (others later member endpoint.pk).mpr ⟨?_, ?_⟩
        · exact conditions.1 ⟨later, member, List.ne_nil_of_mem subscribes⟩
        · exact conditions.2 later member endpoint subscribes

theorem subscribes_of_deliverEvents_posted (distinct : (batch.map (·.pk)).Nodup)
    (byName : ∀ event ∈ batch, ∀ endpoint ∈ endpoints, endpoint.MatchesByName event.eventType)
    {event : OutboxEvent} (member : event ∈ batch) {endpoint : WebhookEndpoint}
    (posted : (event.pk, endpoint.pk) ∈ (deliverEvents http endpoints batch).posts) :
    ∃ subscriber ∈ subscribers endpoints event, subscriber.pk = endpoint.pk := by
  induction batch with
  | nil => cases member
  | cons first rest ih =>
      obtain ⟨own, others⟩ := cons_posts_iff distinct
      rw [List.map_cons, List.nodup_cons] at distinct
      rw [List.forall_mem_cons] at byName
      rcases List.mem_cons.mp member with rfl | later
      · exact subscribes_of_posted byName.1 ((own endpoint.pk).mp posted)
      · exact ih distinct.2 byName.2 later ((others event later endpoint.pk).mp posted).2

theorem undisturbed_of_quiet (before : ∀ pk, http.interruptBefore pk = none)
    (after : ∀ pk, http.interruptAfter pk = none)
    (finishes : ∀ event ∈ batch, ∀ endpoint ∈ endpoints, Finishes http event endpoint) :
    Undisturbed http endpoints batch := by
  induction batch with
  | nil => trivial
  | cons event rest ih =>
      rw [List.forall_mem_cons] at finishes
      have own : ∀ endpoint ∈ subscribers endpoints event, Finishes http event endpoint :=
        fun endpoint subscribes => finishes.1 endpoint (List.mem_filter.mp subscribes).1
      refine ⟨fun _ => ⟨before event.pk, ?_⟩, fun _ => ⟨before event.pk, own, ?_⟩, ih finishes.2⟩
      · exact fun endpoint member => own endpoint (List.mem_of_mem_dropLast member)
      · exact .inr (after event.pk)

end Batch

/-! ## The whole run -/

/-- The match is by name, and the events of the batch are posted to the active endpoints that
name them. -/
structure RoutesByName (input : RunInput) (events : EventTable) : Prop where
  matched : ∀ event ∈ input.batch events, ∀ endpoint ∈ input.endpoints,
    endpoint.isActive = true → endpoint.MatchesByName event.eventType
  posted : ∀ event ∈ input.batch events, ∀ endpoint ∈ input.endpoints,
    (event.pk, endpoint.pk) ∈ (processPendingEvents input events).posts ↔
      endpoint.isActive = true ∧ endpoint.eventTypes.names event.eventType = true

theorem mem_activeEndpoints {endpoint : WebhookEndpoint} {endpoints : List WebhookEndpoint} :
    endpoint ∈ activeEndpoints endpoints ↔ endpoint ∈ endpoints ∧ endpoint.isActive = true :=
  List.mem_filter

theorem mem_subscribers {endpoint : WebhookEndpoint} {endpoints : List WebhookEndpoint}
    {event : OutboxEvent} :
    endpoint ∈ subscribers endpoints event ↔
      endpoint ∈ endpoints ∧ endpoint.eventTypes.names event.eventType = true :=
  List.mem_filter

/-- A run routes by event type if and only if the columns of the active endpoints have a
suitable shape and no exception comes before the last request that is owed. -/
theorem events_routed_by_name_iff (input : RunInput) (events : EventTable)
    (distinct : (input.endpoints.map (·.pk)).Nodup) :
    RoutesByName input events ↔
      (∀ event ∈ input.batch events, ∀ endpoint ∈ input.endpoints, endpoint.isActive = true →
        endpoint.eventTypes.matchesByName event.eventType = true) ∧
      Undisturbed input.http (activeEndpoints input.endpoints) (input.batch events) := by
  have posts : (processPendingEvents input events).posts =
      (deliverEvents input.http (activeEndpoints input.endpoints) (input.batch events)).posts := by
    rw [processPendingEvents_eq, deliverAndUpdate_posts, RunInput.delivery]
  have activeDistinct : ((activeEndpoints input.endpoints).map (·.pk)).Nodup :=
    distinct.sublist (List.filter_sublist.map _)
  have batchDistinct := input.batch_nodup events
  have active : (∀ event ∈ input.batch events, ∀ endpoint ∈ input.endpoints,
      endpoint.isActive = true → endpoint.MatchesByName event.eventType) →
      ∀ event ∈ input.batch events, ∀ endpoint ∈ activeEndpoints input.endpoints,
        endpoint.MatchesByName event.eventType := by
    intro matched event member endpoint listed
    obtain ⟨stored, isActive⟩ := mem_activeEndpoints.mp listed
    exact matched event member endpoint stored isActive
  constructor
  · intro routes
    refine ⟨?_, ?_⟩
    · intro event member endpoint stored isActive
      exact matchesByName_iff.mp (routes.matched event member endpoint stored isActive)
    · refine (deliverEvents_posts_all_iff batchDistinct activeDistinct
        (active routes.matched)).mp ?_
      intro event member endpoint subscribes
      obtain ⟨listed, named⟩ := mem_subscribers.mp subscribes
      obtain ⟨stored, isActive⟩ := mem_activeEndpoints.mp listed
      rw [← posts]
      exact (routes.posted event member endpoint stored).mpr ⟨isActive, named⟩
  · intro conditions
    obtain ⟨shapes, undisturbed⟩ := conditions
    have matched : ∀ event ∈ input.batch events, ∀ endpoint ∈ input.endpoints,
        endpoint.isActive = true → endpoint.MatchesByName event.eventType :=
      fun event member endpoint stored isActive =>
        matchesByName_iff.mpr (shapes event member endpoint stored isActive)
    refine ⟨matched, ?_⟩
    intro event member endpoint stored
    rw [posts]
    constructor
    · intro posted
      obtain ⟨subscriber, subscribes, key⟩ := subscribes_of_deliverEvents_posted batchDistinct
        (active matched) member posted
      obtain ⟨listed, named⟩ := mem_subscribers.mp subscribes
      obtain ⟨subscriberStored, isActive⟩ := mem_activeEndpoints.mp listed
      obtain rfl := List.inj_on_of_nodup_map distinct subscriberStored stored key
      exact ⟨isActive, named⟩
    · intro owed
      exact (deliverEvents_posts_all_iff batchDistinct activeDistinct (active matched)).mpr
        undisturbed event member endpoint
        (mem_subscribers.mpr ⟨mem_activeEndpoints.mpr ⟨stored, owed.1⟩, owed.2⟩)

/-! ## Two events and one endpoint -/

namespace Sample

def routingRun (eventTypes : Json) : RunInput :=
  { softLimitRun with
    endpoints := [{ endpoint with eventTypes }]
    http := answering 200 }

end Sample

/-- The column is a list with one of the two types. -/
theorem events_routed_by_name_iff_list :
    RoutesByName (Sample.routingRun (.array [.string "file.stored"])) Sample.twoEvents := by
  refine (events_routed_by_name_iff (Sample.routingRun (.array [.string "file.stored"]))
    Sample.twoEvents (List.nodup_singleton _)).mpr ⟨by decide, ?_⟩
  exact undisturbed_of_quiet (fun _ => rfl) (fun _ => rfl) fun _ _ _ _ => ⟨_, rfl⟩

/-- The column is the number one, of which membership is a TypeError. -/
theorem events_not_routed_by_name :
    ¬ ∀ (input : RunInput) (events : EventTable), (input.endpoints.map (·.pk)).Nodup →
      RoutesByName input events := by
  intro routes
  have matched := (routes (Sample.routingRun (.number 1 0)) Sample.twoEvents
    (List.nodup_singleton _)).matched Sample.event List.mem_cons_self _ List.mem_cons_self rfl
  cases matched

end Doorito.Common
