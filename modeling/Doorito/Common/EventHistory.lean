import Doorito.Common.EventLocks
import Doorito.Foundation.History

/-! What the outbox remembers. The columns that say what has happened are written by
`emit_event` and never again; the columns that say how the delivery stands are written by a
run that has made the requests. Both are read off the past of a run of the outbox. -/

set_option autoImplicit false

namespace Doorito.Common

open Foundation Machine

/-- The two stand for one emission: they differ in the columns of the delivery alone. -/
structure OutboxEvent.SameEvent (left right : OutboxEvent) : Prop where
  pk : left.pk = right.pk
  aggregateType : left.aggregateType = right.aggregateType
  aggregateId : left.aggregateId = right.aggregateId
  eventType : left.eventType = right.eventType
  payload : left.payload = right.payload
  idempotencyKey : left.idempotencyKey = right.idempotencyKey
  maxAttempts : left.maxAttempts = right.maxAttempts
  createdAt : left.createdAt = right.createdAt

/-- The step creates the row. -/
def Emits (world : World) (action : Action) (origin : OutboxEvent) : Prop :=
  ∃ now pk arguments grown, action = .emitEvent now pk arguments ∧ pk ∉ world.issued ∧
    emitEvent now pk arguments world.events = .ok grown ∧ origin = arguments.event now pk

/-- The event is in the table at the beginning, or one of the steps creates its row. -/
def Emitted (start : World) (actions : List Action) (origin : OutboxEvent) : Prop :=
  origin ∈ start.events.rows ∨
    ∃ world action, outbox.Takes start actions world action ∧ Emits world action origin

/-- The row or the object has come from an emission. -/
def HasOrigin (start : World) (actions : List Action) (event : OutboxEvent) : Prop :=
  ∃ origin, Emitted start actions origin ∧ origin.SameEvent event

namespace OutboxEvent.SameEvent

variable {left middle right : OutboxEvent}

theorem refl (event : OutboxEvent) : event.SameEvent event :=
  ⟨rfl, rfl, rfl, rfl, rfl, rfl, rfl, rfl⟩

theorem symm (same : left.SameEvent right) : right.SameEvent left :=
  ⟨same.pk.symm, same.aggregateType.symm, same.aggregateId.symm, same.eventType.symm,
    same.payload.symm, same.idempotencyKey.symm, same.maxAttempts.symm, same.createdAt.symm⟩

theorem trans (first : left.SameEvent middle) (second : middle.SameEvent right) :
    left.SameEvent right :=
  ⟨first.pk.trans second.pk, first.aggregateType.trans second.aggregateType,
    first.aggregateId.trans second.aggregateId, first.eventType.trans second.eventType,
    first.payload.trans second.payload, first.idempotencyKey.trans second.idempotencyKey,
    first.maxAttempts.trans second.maxAttempts, first.createdAt.trans second.createdAt⟩

theorem saveOnto (object row : OutboxEvent) (now : Time) :
    row.SameEvent (object.saveOnto now row) :=
  ⟨rfl, rfl, rfl, rfl, rfl, rfl, rfl, rfl⟩

theorem reset (row : OutboxEvent) (now : Time) : row.SameEvent (row.reset now) :=
  ⟨rfl, rfl, rfl, rfl, rfl, rfl, rfl, rfl⟩

/-- A request shows nothing of how the delivery of its event stands. -/
theorem webhookRequest (same : left.SameEvent right) (http : Http)
    (endpoint : WebhookEndpoint) :
    webhookRequest http endpoint left = webhookRequest http endpoint right := by
  simp only [Doorito.Common.webhookRequest, same.payload, same.eventType, same.pk]

end OutboxEvent.SameEvent

section Origins

variable {start world next : World} {actions : List Action} {action : Action}
  {event : OutboxEvent}

theorem Emitted.append (emitted : Emitted start actions event) (more : List Action) :
    Emitted start (actions ++ more) event := by
  rcases emitted with old | ⟨world, action, takes, emits⟩
  · exact .inl old
  · exact .inr ⟨world, action, takes.append more, emits⟩

theorem HasOrigin.append (origin : HasOrigin start actions event) (more : List Action) :
    HasOrigin start (actions ++ more) event := by
  obtain ⟨first, emitted, same⟩ := origin
  exact ⟨first, emitted.append more, same⟩

theorem HasOrigin.trans {later : OutboxEvent} (origin : HasOrigin start actions event)
    (same : event.SameEvent later) : HasOrigin start actions later := by
  obtain ⟨first, emitted, begins⟩ := origin
  exact ⟨first, emitted, begins.trans same⟩

/-- A key is given away only with a row. -/
theorem emits_of_issued {now : Time} {pk : Uuid} {arguments : EmitArguments}
    (stepped : outbox.step world (.emitEvent now pk arguments) = some next)
    (fresh : pk ∉ world.issued) (recorded : pk ∈ next.issued) :
    ∃ grown, emitEvent now pk arguments world.events = .ok grown := by
  cases steps_of_step stepped with
  | emitted _ emits => exact ⟨_, emits⟩
  | refused => exact absurd recorded fresh

theorem Emits.issued (emits : Emits world action event)
    (stepped : outbox.step world action = some next) :
    event.pk ∉ world.issued ∧ event.pk ∈ next.issued := by
  obtain ⟨now, pk, arguments, grown, rfl, fresh, emits, rfl⟩ := emits
  refine ⟨fresh, ?_⟩
  simp only [outbox, World.step, if_neg fresh, emits] at stepped
  cases stepped
  exact List.mem_cons_self

/-- Rows and objects have an origin, and an object is as it was when it was read: PENDING. -/
structure OriginInvariant (start : World) (actions : List Action) (world : World) : Prop where
  rows : ∀ row ∈ world.events.rows, HasOrigin start actions row
  objects : ∀ (run : Nat) (phase : RunPhase), world.runs[run]? = some phase →
    ∀ event ∈ phase.batch, HasOrigin start actions event ∧ event.status = .pending
  issued : ∀ origin, Emitted start actions origin → origin.pk ∈ world.issued
  distinct : ∀ left right, Emitted start actions left → Emitted start actions right →
    left.pk = right.pk → left = right

theorem row_hasOrigin (invariant : OriginInvariant start actions world)
    (ran : outbox.run start actions = some world)
    (stepped : outbox.step world action = some next) {row : OutboxEvent}
    (member : row ∈ next.events.rows) : HasOrigin start (actions ++ [action]) row := by
  rcases step_row_origin stepped member with
    old | ⟨now, pk, arguments, rfl, fresh, recorded, rfl⟩ |
    ⟨_, now, random, _, old, _, oldMember, saves⟩ | ⟨now, _, old, _, oldMember, _, _, rfl⟩
  · exact (invariant.rows row old).append _
  · obtain ⟨grown, emits⟩ := emits_of_issued stepped fresh recorded
    exact ⟨_, .inr ⟨world, _, takes_last ran, now, pk, arguments, grown, rfl, fresh, emits, rfl⟩,
      .refl _⟩
  · obtain ⟨_, _, event, result, _, _, _, _, _, rfl⟩ := saves
    exact ((invariant.rows old oldMember).append _).trans (.saveOnto _ _ _)
  · exact ((invariant.rows old oldMember).append _).trans (.reset _ _)

theorem object_hasOrigin (invariant : OriginInvariant start actions world)
    (stepped : outbox.step world action = some next) {run : Nat} {phase : RunPhase}
    (found : next.runs[run]? = some phase) (member : event ∈ phase.batch) :
    HasOrigin start actions event ∧ event.status = .pending := by
  rcases step_phase_origin stepped found with
    same | rfl | ⟨_, now, _, _, _, rfl⟩ | ⟨batch, was, rfl⟩ | ⟨batch, _, _, was, rfl⟩
  · exact invariant.objects run phase same event member
  · cases member
  · simp only [RunPhase.batch] at member
    obtain ⟨row, due, _⟩ := mem_fetchPending member
    exact ⟨invariant.rows event row, (isDue_iff.mp due).1⟩
  · exact invariant.objects run _ was event member
  · exact invariant.objects run _ was event member

theorem emitted_append_singleton (emitted : Emitted start (actions ++ [action]) event) :
    Emitted start actions event ∨
      ∃ world, outbox.run start actions = some world ∧ Emits world action event := by
  rcases emitted with old | ⟨world, other, takes, emits⟩
  · exact .inl (.inl old)
  · rcases takes_append_singleton takes with earlier | ⟨rfl, ran⟩
    · exact .inl (.inr ⟨world, other, earlier, emits⟩)
    · exact .inr ⟨world, ran, emits⟩

/-- A key is given away once. -/
theorem Emits.unique {other : OutboxEvent} (first : Emits world action event)
    (second : Emits world action other) : event = other := by
  obtain ⟨now, pk, arguments, _, rfl, _, _, rfl⟩ := first
  obtain ⟨_, _, _, _, same, _, _, rfl⟩ := second
  cases same
  rfl

theorem originInvariant_init (events : EventTable) :
    OriginInvariant (.init events) [] (.init events) := by
  have only : ∀ origin, Emitted (.init events) [] origin → origin ∈ events.rows := by
    intro origin emitted
    rcases emitted with old | ⟨_, _, ⟨before, after, split, _⟩, _⟩
    · exact old
    · simp at split
  refine ⟨fun row member => ⟨row, .inl member, .refl row⟩, ?_, ?_, ?_⟩
  · intro run phase found
    simp [World.init] at found
  · intro origin emitted
    exact Table.mem_keys_of_mem (only origin emitted)
  · intro left right leftEmitted rightEmitted same
    exact Table.eq_of_key_eq (only left leftEmitted) (only right rightEmitted) same

theorem OriginInvariant.step (invariant : OriginInvariant start actions world)
    (ran : outbox.run start actions = some world)
    (stepped : outbox.step world action = some next) :
    OriginInvariant start (actions ++ [action]) next := by
  have cases : ∀ origin, Emitted start (actions ++ [action]) origin →
      Emitted start actions origin ∨ Emits world action origin := by
    intro origin emitted
    refine (emitted_append_singleton emitted).imp_right ?_
    intro emits
    obtain ⟨other, reached, emits⟩ := emits
    cases ran.symm.trans reached
    exact emits
  refine ⟨fun row => row_hasOrigin invariant ran stepped, ?_, ?_, ?_⟩
  · intro run phase found event member
    obtain ⟨origin, pending⟩ := object_hasOrigin invariant stepped found member
    exact ⟨origin.append _, pending⟩
  · intro origin emitted
    rcases cases origin emitted with earlier | emits
    · exact step_issued stepped (invariant.issued origin earlier)
    · exact (emits.issued stepped).2
  · intro left right leftEmitted rightEmitted same
    rcases cases left leftEmitted with leftEarlier | leftEmits <;>
      rcases cases right rightEmitted with rightEarlier | rightEmits
    · exact invariant.distinct left right leftEarlier rightEarlier same
    · exact absurd (same ▸ invariant.issued left leftEarlier) (rightEmits.issued stepped).1
    · exact absurd (same ▸ invariant.issued right rightEarlier) (leftEmits.issued stepped).1
    · exact leftEmits.unique rightEmits

theorem originInvariant_of_run {events : EventTable}
    (ran : outbox.run (.init events) actions = some world) :
    OriginInvariant (.init events) actions world :=
  run_induction (OriginInvariant (.init events)) (originInvariant_init events)
    (fun _ _ _ _ reached stepped invariant => invariant.step reached stepped) ran

end Origins

/-! ## Requests -/

section Posts

variable {http : Http} {endpoints matching : List WebhookEndpoint} {event : OutboxEvent}
  {batch : List OutboxEvent}

theorem deliverToMatching_posts_of_finishes
    (finishes : ∀ endpoint ∈ matching, Finishes http event endpoint) :
    (deliverToMatching http event matching).1 =
      matching.map fun endpoint => (event.pk, endpoint.pk) := by
  induction matching with
  | nil => rfl
  | cons endpoint rest ih =>
      obtain ⟨result, finished⟩ := finishes endpoint List.mem_cons_self
      simp only [deliverToMatching, finished, List.map_cons]
      rw [ih fun other member => finishes other (List.mem_cons_of_mem _ member)]

theorem PostsFinished.posts (finished : PostsFinished http endpoints event matching) :
    (deliverEvent http endpoints event).1 =
      matching.map fun endpoint => (event.pk, endpoint.pk) := by
  cases matching with
  | nil => simp [deliverEvent, finished.before, finished.chosen]
  | cons first rest =>
      simp only [deliverEvent, finished.before, finished.chosen]
      exact deliverToMatching_posts_of_finishes finished.finishes

theorem posts_of_finished (member : event ∈ finishedEvents http endpoints batch) :
    (deliverEvent http endpoints event).1 ⊆ (deliverEvents http endpoints batch).posts := by
  induction batch with
  | nil => cases member
  | cons first rest ih =>
      intro post posted
      cases left : raisedBy http endpoints first with
      | some raised => simp [finishedEvents, left] at member
      | none =>
          rw [deliverEvents_cons_of_finished http endpoints left, List.mem_append]
          simp only [finishedEvents, List.takeWhile_cons, left, Option.isNone_none,
            ↓reduceIte, List.mem_cons] at member
          rcases member with rfl | later
          · exact .inl posted
          · exact .inr (ih later posted)

/-- A result is that of an event of the batch whose requests have finished. -/
theorem finished_of_lookup {pk : Uuid} {result : EventResult}
    (found : (deliverEvents http endpoints batch).results.lookup pk = some result) :
    ∃ done ∈ finishedEvents http endpoints batch, done.pk = pk ∧
      result = resultOf http endpoints done := by
  rw [deliverEvents_results, lookup_map_pk, Option.map_eq_some_iff] at found
  obtain ⟨done, chosen, rfl⟩ := found
  exact ⟨done, List.mem_of_find?_eq_some chosen, by simpa using List.find?_some chosen, rfl⟩

end Posts

section Outcomes

variable {start world next : World} {actions : List Action} {action : Action}

theorem posts_subset_of_step (stepped : outbox.step world action = some next) :
    world.posts ⊆ next.posts := by
  intro post member
  cases steps_of_step stepped with
  | delivered => exact List.mem_append_left _ member
  | _ => exact member

/-- Phase 2 of a run ends in the step that makes its requests. -/
theorem delivered_of_step (stepped : outbox.step world action = some next) {run : Nat}
    {batch : List OutboxEvent} {results : Results}
    (found : next.runs[run]? = some (.delivered batch results)) :
    world.runs[run]? = some (.delivered batch results) ∨
      ∃ endpoints http, action = .deliver run endpoints http ∧
        world.runs[run]? = some (.fetched batch) ∧
        results = (deliverEvents http (activeEndpoints endpoints) batch).results ∧
        ∀ post ∈ (deliverEvents http (activeEndpoints endpoints) batch).posts,
          (run, post) ∈ next.posts := by
  cases steps_of_step stepped with
  | begun =>
      rcases step_phase_origin stepped found with same | ended | ⟨_, _, _, _, _, begun⟩ |
        ⟨_, _, committed⟩ | ⟨_, _, _, was, shape⟩
      · exact .inl same
      · cases ended
      · cases begun
      · cases committed
      · have within := (List.getElem?_eq_some_iff.mp was).1
        simp only [World.startRun, List.getElem?_append_left within, was] at found
        cases found
  | @delivered number endpoints http batch was =>
      rcases getElem?_set_cases found with old | ⟨rfl, new⟩
      · exact .inl old
      · right
        split at new
        · next results kept =>
          cases new
          refine ⟨endpoints, http, rfl, was, caught_eq_ok kept, ?_⟩
          intro post member
          exact List.mem_append_right _ (List.mem_map_of_mem member)
        · cases new
  | committed =>
      rcases getElem?_set_cases found with old | ⟨_, new⟩
      · exact .inl old
      · cases new
  | updated =>
      rcases getElem?_set_cases found with old | ⟨_, new⟩
      · exact .inl old
      · cases new
  | died =>
      rcases getElem?_set_cases found with old | ⟨_, new⟩
      · exact .inl old
      · cases new
  | _ => exact .inl found

/-- Phase 2 of a run has sent the event to every endpoint that is active and subscribed to
it, and all of these requests have ended with an answer or a RequestError. -/
def SentToAll (start : World) (actions : List Action) (posts : List (Nat × Post))
    (event : OutboxEvent) (http : Http) (matching : List WebhookEndpoint) : Prop :=
  ∃ world run endpoints batch, outbox.Takes start actions world (.deliver run endpoints http) ∧
    world.runs[run]? = some (.fetched batch) ∧ event ∈ batch ∧
    PostsFinished http (activeEndpoints endpoints) event matching ∧
    ∀ endpoint ∈ matching, (run, event.pk, endpoint.pk) ∈ posts

/-- What a row that is no longer PENDING says of its event was so when it was sent. -/
def Documented (start : World) (actions : List Action) (posts : List (Nat × Post))
    (row : OutboxEvent) : Prop :=
  (∃ old ∈ start.events.rows, old.SameEvent row ∧ old.status = row.status) ∨
    ∃ event http matching, SentToAll start actions posts event http matching ∧
      event.SameEvent row ∧
      (row.status = .delivered ↔ ∀ endpoint ∈ matching, Accepts http event endpoint) ∧
      (row.status = .failed → row.maxAttempts ≤ row.attempts)

/-- The results of a run are those of the requests that it has made. -/
structure OutcomeInvariant (start : World) (actions : List Action) (world : World) : Prop where
  origins : OriginInvariant start actions world
  results : ∀ (run : Nat) (batch : List OutboxEvent) (results : Results),
    world.runs[run]? = some (.delivered batch results) →
      ∃ before endpoints http, outbox.Takes start actions before (.deliver run endpoints http) ∧
        before.runs[run]? = some (.fetched batch) ∧
        results = (deliverEvents http (activeEndpoints endpoints) batch).results ∧
        ∀ post ∈ (deliverEvents http (activeEndpoints endpoints) batch).posts,
          (run, post) ∈ world.posts
  rows : ∀ row ∈ world.events.rows, row.status ≠ .pending →
    Documented start actions world.posts row

theorem Documented.append {posts more : List (Nat × Post)} {row : OutboxEvent}
    (documented : Documented start actions posts row) (last : List Action)
    (grows : posts ⊆ more) : Documented start (actions ++ last) more row := by
  rcases documented with old | ⟨event, http, matching, sent, same, outcome⟩
  · exact .inl old
  · obtain ⟨world, run, endpoints, batch, takes, was, member, finished, posted⟩ := sent
    exact .inr ⟨event, http, matching, ⟨world, run, endpoints, batch, takes.append last, was,
      member, finished, fun endpoint chosen => grows (posted endpoint chosen)⟩, same, outcome⟩

theorem OriginInvariant.sameEvent (invariant : OriginInvariant start actions world)
    {left right : OutboxEvent} (leftOrigin : HasOrigin start actions left)
    (rightOrigin : HasOrigin start actions right) (key : left.pk = right.pk) :
    left.SameEvent right := by
  obtain ⟨first, firstEmitted, firstSame⟩ := leftOrigin
  obtain ⟨second, secondEmitted, secondSame⟩ := rightOrigin
  obtain rfl := invariant.distinct first second firstEmitted secondEmitted
    (firstSame.pk.trans (key.trans secondSame.pk.symm))
  exact firstSame.symm.trans secondSame

/-- A row that a run saves is documented by the requests of the run. -/
theorem documented_of_saved (invariant : OutcomeInvariant start actions world) {run : Nat}
    {now : Time} {random : Uuid → Draw} {refuses : OutboxEvent → Bool} {old row : OutboxEvent}
    (member : old ∈ world.events.rows) (saves : Saved world run now random refuses old row)
    (left : row.status ≠ .pending) : Documented start actions world.posts row := by
  obtain ⟨batch, results, event, result, was, _, eventMember, lookup, key, rfl⟩ := saves
  obtain ⟨before, endpoints, http, takes, fetched, rfl, posted⟩ :=
    invariant.results run batch results was
  obtain ⟨done, doneMember, doneKey, rfl⟩ := finished_of_lookup lookup
  have inBatch : done ∈ batch := (finishedEvents_sublist http _ batch).subset doneMember
  obtain ⟨matching, finished, _⟩ := raisedBy_eq_none_iff_posts.mp
    (raisedBy_of_mem_finishedEvents http _ doneMember)
  obtain ⟨eventOrigin, pending⟩ := invariant.origins.objects run _ was event eventMember
  have doneOrigin := (invariant.origins.objects run _ was done inBatch).1
  have same : done.SameEvent old := invariant.origins.sameEvent doneOrigin
    (invariant.origins.rows old member) (doneKey.trans key)
  have budget : event.maxAttempts = old.maxAttempts :=
    (invariant.origins.sameEvent eventOrigin (invariant.origins.rows old member) key).maxAttempts
  refine .inr ⟨done, http, matching, ⟨before, run, endpoints, batch, takes, fetched, inBatch,
    finished, ?_⟩, same.trans (.saveOnto _ _ _), ?_⟩
  · intro endpoint chosen
    apply posted
    apply posts_of_finished doneMember
    rw [finished.posts]
    exact List.mem_map_of_mem chosen
  · rw [← resultOf_allOk_iff finished]
    rcases applyResult_cases now (random event.pk)
        (resultOf http (activeEndpoints endpoints) done) event with
      ⟨ok, status, _⟩ | ⟨failed, spent, status, _⟩ | ⟨_, _, status, _⟩
    · simp [status, ok]
    · rw [saveOnto_status, saveOnto_attempts, saveOnto_maxAttempts, status, failed,
        applyResult_attempts, ← budget]
      simpa using spent
    · exact absurd (status.trans pending) left

theorem outcomeInvariant_init (events : EventTable) :
    OutcomeInvariant (.init events) [] (.init events) := by
  refine ⟨originInvariant_init events, ?_, ?_⟩
  · intro run batch results found
    simp [World.init] at found
  · intro row member _
    exact .inl ⟨row, member, .refl row, rfl⟩

theorem OutcomeInvariant.step (invariant : OutcomeInvariant start actions world)
    (ran : outbox.run start actions = some world)
    (stepped : outbox.step world action = some next) :
    OutcomeInvariant start (actions ++ [action]) next := by
  have grows := posts_subset_of_step stepped
  refine ⟨invariant.origins.step ran stepped, ?_, ?_⟩
  · intro run batch results found
    rcases delivered_of_step stepped found with old | ⟨endpoints, http, rfl, was, same, posted⟩
    · obtain ⟨before, endpoints, http, takes, was, same, posted⟩ :=
        invariant.results run batch results old
      exact ⟨before, endpoints, http, takes.append _, was, same,
        fun post member => grows (posted post member)⟩
    · exact ⟨world, endpoints, http, takes_last ran, was, same, posted⟩
  · intro row member left
    rcases step_row_origin stepped member with
      old | ⟨_, _, _, _, _, _, rfl⟩ | ⟨_, _, _, _, old, _, oldMember, saves⟩ |
      ⟨_, _, _, _, _, _, _, rfl⟩
    · exact (invariant.rows row old left).append _ grows
    · exact absurd rfl left
    · exact (documented_of_saved invariant oldMember saves left).append _ grows
    · exact absurd rfl left

end Outcomes

variable {events : EventTable} {actions : List Action} {final : World}

/-- In every interleaving, each row and each object of a run is the one emission with its key,
and each request is the request of that emission: neither retries nor the writes of other runs
change what is sent. -/
theorem requests_carry_emissions (ran : outbox.run (.init events) actions = some final) :
    (∀ row ∈ final.events.rows, ∃ origin, Emitted (.init events) actions origin ∧
      origin.SameEvent row ∧
      ∀ other, Emitted (.init events) actions other → other.pk = row.pk → other = origin) ∧
    ∀ world run endpoints http batch,
      outbox.Takes (.init events) actions world (.deliver run endpoints http) →
      world.runs[run]? = some (.fetched batch) → ∀ event ∈ batch,
        ∃ origin, Emitted (.init events) actions origin ∧ origin.SameEvent event ∧
          ∀ endpoint, webhookRequest http endpoint event =
            webhookRequest http endpoint origin := by
  constructor
  · intro row member
    have invariant := originInvariant_of_run ran
    obtain ⟨origin, emitted, same⟩ := invariant.rows row member
    refine ⟨origin, emitted, same, ?_⟩
    intro other otherEmitted key
    exact invariant.distinct other origin otherEmitted emitted (key.trans same.pk.symm)
  · intro world run endpoints http batch takes was event member
    obtain ⟨before, after, rfl, reached⟩ := takes
    obtain ⟨origin, emitted, same⟩ :=
      ((originInvariant_of_run reached).objects run _ was event member).1
    exact ⟨origin, emitted.append _, same,
      fun endpoint => (same.webhookRequest http endpoint).symm⟩

theorem requests_carry_emissions_deliverOnce :
    ∃ row origin, (Sample.after .empty Sample.deliverOnce).events.rows = [row] ∧
      Emitted (.init .empty) Sample.deliverOnce origin ∧ origin.SameEvent row := by
  have ran : outbox.run (.init .empty) Sample.deliverOnce =
      some (Sample.after .empty Sample.deliverOnce) := rfl
  obtain ⟨origin, emitted, same, _⟩ :=
    (requests_carry_emissions ran).1 _ List.mem_cons_self
  exact ⟨_, origin, rfl, emitted, same⟩

/-- In every interleaving, a row that is DELIVERED or FAILED, and was not so from the
beginning, has been sent to all endpoints that were active and subscribed to it, and is
DELIVERED exactly if each of them has answered with a 2xx status. -/
theorem outcomes_are_documented (ran : outbox.run (.init events) actions = some final)
    {row : OutboxEvent} (member : row ∈ final.events.rows) (left : row.status ≠ .pending) :
    (∃ old ∈ events.rows, old.SameEvent row ∧ old.status = row.status) ∨
      ∃ event http matching, SentToAll (.init events) actions final.posts event http matching ∧
        event.SameEvent row ∧
        (row.status = .delivered ↔ ∀ endpoint ∈ matching, Accepts http event endpoint) ∧
        (row.status = .failed → row.maxAttempts ≤ row.attempts) :=
  have invariant : OutcomeInvariant (.init events) actions final :=
    run_induction _ (outcomeInvariant_init events)
      (fun _ _ _ _ reached stepped invariant => invariant.step reached stepped) ran
  invariant.rows row member left

theorem outcomes_are_documented_deliverOnce :
    ∃ event http matching, SentToAll (.init .empty) Sample.deliverOnce
        (Sample.after .empty Sample.deliverOnce).posts event http matching ∧
      ∀ endpoint ∈ matching, Accepts http event endpoint := by
  have ran : outbox.run (.init .empty) Sample.deliverOnce =
      some (Sample.after .empty Sample.deliverOnce) := rfl
  rcases outcomes_are_documented ran List.mem_cons_self nofun with
    ⟨old, none, _⟩ | ⟨event, http, matching, sent, _, delivered, _⟩
  · cases none
  · exact ⟨event, http, matching, sent, delivered.mp rfl⟩

end Doorito.Common
