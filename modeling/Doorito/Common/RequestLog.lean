import Doorito.Common.EventHistory

/-! The requests that leave the outbox. Each is made by a run that has read its event PENDING
and due, goes to an endpoint that is active and subscribed, and is made once by that run. -/

set_option autoImplicit false

namespace Doorito.Common

open Foundation Machine

/-! ## The requests of one batch -/

section Batch

variable {http : Http} {endpoints matching : List WebhookEndpoint} {event : OutboxEvent}
  {batch : List OutboxEvent}

theorem matchingEndpoints_sublist {eventType : String}
    (chosen : matchingEndpoints eventType endpoints = .ok matching) :
    matching.Sublist endpoints ∧
      ∀ endpoint ∈ matching, endpoint.matches eventType = .ok true := by
  induction endpoints generalizing matching with
  | nil =>
      cases chosen
      exact ⟨.slnil, nofun⟩
  | cons endpoint rest ih =>
      simp only [matchingEndpoints] at chosen
      cases subscribed : endpoint.matches eventType with
      | error raised => simp [subscribed] at chosen
      | ok wants =>
          cases others : matchingEndpoints eventType rest with
          | error raised => simp [subscribed, others, Except.map] at chosen
          | ok later =>
              obtain ⟨sublist, matched⟩ := ih others
              simp only [subscribed, others, Except.map, Except.ok.injEq] at chosen
              cases wants with
              | false =>
                  obtain rfl : later = matching := chosen
                  exact ⟨sublist.cons _, matched⟩
              | true =>
                  obtain rfl : endpoint :: later = matching := chosen
                  exact ⟨sublist.cons_cons _, List.forall_mem_cons.mpr ⟨subscribed, matched⟩⟩

theorem deliverToMatching_posts_prefix :
    (deliverToMatching http event matching).1 <+:
      matching.map fun endpoint => (event.pk, endpoint.pk) := by
  induction matching with
  | nil => exact List.prefix_rfl
  | cons endpoint rest ih =>
      simp only [deliverToMatching, List.map_cons]
      split
      · exact List.prefix_append [_] _
      · exact (List.prefix_cons_inj _).mpr ih

/-- The requests for one event go to endpoints that are subscribed to it, in their order. -/
theorem deliverEvent_posts_sublist (http : Http) (endpoints : List WebhookEndpoint)
    (event : OutboxEvent) :
    ∃ chosen : List WebhookEndpoint, chosen.Sublist endpoints ∧
      (∀ endpoint ∈ chosen, endpoint.matches event.eventType = .ok true) ∧
      (deliverEvent http endpoints event).1 =
        chosen.map fun endpoint => (event.pk, endpoint.pk) := by
  have nothing : ∃ chosen : List WebhookEndpoint, chosen.Sublist endpoints ∧
      (∀ endpoint ∈ chosen, endpoint.matches event.eventType = .ok true) ∧
      [] = chosen.map fun endpoint => (event.pk, endpoint.pk) :=
    ⟨[], List.nil_sublist _, nofun, rfl⟩
  unfold deliverEvent
  split
  · exact nothing
  · split
    · exact nothing
    · exact nothing
    · next first rest chosen =>
      obtain ⟨sublist, matched⟩ := matchingEndpoints_sublist chosen
      have posted : (deliverToMatching http event (first :: rest)).1 <+: _ :=
        deliverToMatching_posts_prefix
      obtain ⟨taken, isTaken, same⟩ := List.prefix_map_iff.mp posted
      refine ⟨taken, isTaken.sublist.trans sublist, ?_, same⟩
      exact fun endpoint member => matched endpoint (isTaken.subset member)

theorem mem_deliverEvents_posts {post : Post}
    (member : post ∈ (deliverEvents http endpoints batch).posts) :
    ∃ posted ∈ batch, posted.pk = post.1 ∧ ∃ endpoint ∈ endpoints,
      endpoint.matches posted.eventType = .ok true ∧ endpoint.pk = post.2 := by
  have one : ∀ posted : OutboxEvent, post ∈ (deliverEvent http endpoints posted).1 →
      posted.pk = post.1 ∧ ∃ endpoint ∈ endpoints,
        endpoint.matches posted.eventType = .ok true ∧ endpoint.pk = post.2 := by
    intro posted among
    obtain ⟨chosen, sublist, matched, same⟩ :=
      deliverEvent_posts_sublist http endpoints posted
    rw [same] at among
    obtain ⟨endpoint, taken, rfl⟩ := List.mem_map.mp among
    exact ⟨rfl, endpoint, sublist.subset taken, matched endpoint taken, rfl⟩
  induction batch with
  | nil => cases member
  | cons first rest ih =>
      cases left : raisedBy http endpoints first with
      | some raised =>
          rw [deliverEvents_cons_of_raised http endpoints left] at member
          exact ⟨first, List.mem_cons_self, one first member⟩
      | none =>
          rw [deliverEvents_cons_of_finished http endpoints left, List.mem_append] at member
          rcases member with here | later
          · exact ⟨first, List.mem_cons_self, one first here⟩
          · obtain ⟨posted, among, shape⟩ := ih later
            exact ⟨posted, List.mem_cons_of_mem _ among, shape⟩

theorem deliverEvents_posts_nodup (http : Http) (distinct : (endpoints.map (·.pk)).Nodup)
    (batchDistinct : (batch.map (·.pk)).Nodup) :
    (deliverEvents http endpoints batch).posts.Nodup := by
  have one : ∀ posted : OutboxEvent, (deliverEvent http endpoints posted).1.Nodup := by
    intro posted
    obtain ⟨chosen, sublist, _, same⟩ := deliverEvent_posts_sublist http endpoints posted
    have keys : (chosen.map (·.pk)).Nodup := distinct.sublist (sublist.map _)
    have pairs := keys.map (Prod.mk_right_injective posted.pk)
    rw [List.map_map] at pairs
    rw [same]
    exact pairs
  induction batch with
  | nil => exact List.nodup_nil
  | cons first rest ih =>
      cases left : raisedBy http endpoints first with
      | some raised =>
          rw [deliverEvents_cons_of_raised http endpoints left]
          exact one first
      | none =>
          rw [deliverEvents_cons_of_finished http endpoints left]
          obtain ⟨absent, restDistinct⟩ := List.nodup_cons.mp batchDistinct
          refine List.nodup_append.mpr ⟨one first, ih restDistinct, ?_⟩
          intro post here other later same
          subst same
          obtain ⟨posted, among, key, _⟩ := mem_deliverEvents_posts later
          rw [deliverEvent_posts here] at key
          exact absent (List.mem_map.mpr ⟨posted, among, key⟩)

end Batch

/-! ## The requests of a run of the outbox -/

section Requests

variable {start world next : World} {actions : List Action} {action : Action} {run : Nat}

/-- Phase 1 of the run has read the event as a row that was PENDING and due. -/
def FetchedDue (start : World) (actions : List Action) (run : Nat) (event : OutboxEvent) : Prop :=
  ∃ world now batchSize order skipped,
    outbox.Takes start actions world (.beginFetch now batchSize order skipped) ∧
      world.runs.length = run ∧ event ∈ world.events.rows ∧ event.isDue now = true

/-- Phase 2 of the run has asked for this endpoint among those that it has loaded. -/
def SentTo (start : World) (actions : List Action) (run : Nat) (event : OutboxEvent)
    (destination : Uuid) : Prop :=
  ∃ world endpoints http endpoint,
    outbox.Takes start actions world (.deliver run endpoints http) ∧ endpoint ∈ endpoints ∧
      endpoint.isActive = true ∧ endpoint.matches event.eventType = .ok true ∧
      endpoint.pk = destination

/-- The endpoint rows that the runs load have distinct keys. -/
def LoadsDistinct (actions : List Action) : Prop :=
  ∀ run endpoints http, .deliver run endpoints http ∈ actions →
    (endpoints.map (·.pk)).Nodup

structure RequestInvariant (start : World) (actions : List Action) (world : World) : Prop where
  locks : LockInvariant world
  fetched : ∀ (run : Nat) (phase : RunPhase), world.runs[run]? = some phase →
    (phase.batch.map (·.pk)).Nodup ∧ ∀ event ∈ phase.batch, FetchedDue start actions run event
  made : ∀ run post, (run, post) ∈ world.posts → ∃ event, event.pk = post.1 ∧
    FetchedDue start actions run event ∧ SentTo start actions run event post.2
  distinct : LoadsDistinct actions → world.posts.Nodup

theorem FetchedDue.append {event : OutboxEvent} (fetched : FetchedDue start actions run event)
    (more : List Action) : FetchedDue start (actions ++ more) run event := by
  obtain ⟨world, now, batchSize, order, skipped, takes, rest⟩ := fetched
  exact ⟨world, now, batchSize, order, skipped, takes.append more, rest⟩

theorem SentTo.append {event : OutboxEvent} {destination : Uuid}
    (sent : SentTo start actions run event destination) (more : List Action) :
    SentTo start (actions ++ more) run event destination := by
  obtain ⟨world, endpoints, http, endpoint, takes, rest⟩ := sent
  exact ⟨world, endpoints, http, endpoint, takes.append more, rest⟩

theorem lockInvariant_init (events : EventTable) : LockInvariant (.init events) := by
  constructor
  · intro pk first second locks
    obtain ⟨phase, found, _⟩ := locks
    simp [World.init] at found
  · intro run post member
    cases member

theorem requestInvariant_init (events : EventTable) :
    RequestInvariant (.init events) [] (.init events) := by
  refine ⟨lockInvariant_init events, ?_, ?_, fun _ => List.nodup_nil⟩
  · intro run phase found
    simp [World.init] at found
  · intro run post member
    cases member

/-- A run of a new number is one that the step begins. -/
theorem begun_of_step (stepped : outbox.step world action = some next) {phase : RunPhase}
    (found : next.runs[world.runs.length]? = some phase) :
    ∃ now batchSize order skipped, action = .beginFetch now batchSize order skipped ∧
      (phase = .ended ∨ phase = .fetching (fetchPending now batchSize order
        (fun pk => world.isLocked pk || skipped pk) world.events)) := by
  cases steps_of_step stepped with
  | @begun now batchSize order skipped =>
      refine ⟨now, batchSize, order, skipped, rfl, ?_⟩
      simp only [World.startRun, List.getElem?_concat_length, Option.some.injEq] at found
      split at found
      · exact .inl found.symm
      · exact .inr found.symm
  | _ =>
      have within := (List.getElem?_eq_some_iff.mp found).1
      simp [World.setRun, World.deliverBatch, World.updateBatch, World.setCleanup,
        World.startCleanup] at within

theorem fetched_of_step (invariant : RequestInvariant start actions world)
    (ran : outbox.run start actions = some world)
    (stepped : outbox.step world action = some next) {phase : RunPhase}
    (found : next.runs[run]? = some phase) :
    (phase.batch.map (·.pk)).Nodup ∧
      ∀ event ∈ phase.batch, FetchedDue start (actions ++ [action]) run event := by
  have later : ∀ {batch : List OutboxEvent}, ((batch.map (·.pk)).Nodup ∧
        ∀ event ∈ batch, FetchedDue start actions run event) →
      (batch.map (·.pk)).Nodup ∧
        ∀ event ∈ batch, FetchedDue start (actions ++ [action]) run event := by
    intro batch earlier
    exact ⟨earlier.1, fun event member => (earlier.2 event member).append _⟩
  rcases step_phase_origin stepped found with
    same | rfl | ⟨rfl, _⟩ | ⟨batch, was, rfl⟩ | ⟨batch, _, _, was, rfl⟩
  · exact later (invariant.fetched run phase same)
  · simp [RunPhase.batch]
  · obtain ⟨now, batchSize, order, skipped, rfl, rfl | rfl⟩ := begun_of_step stepped found
    · simp [RunPhase.batch]
    · simp only [RunPhase.batch]
      refine ⟨fetchPending_nodup, ?_⟩
      intro event member
      obtain ⟨row, due, _⟩ := mem_fetchPending member
      exact ⟨world, now, batchSize, order, skipped, takes_last ran, rfl, row, due⟩
  · have earlier := invariant.fetched run _ was
    exact later earlier
  · have earlier := invariant.fetched run _ was
    exact later earlier

/-- The requests that a step adds are those of one batch, whose run has sent nothing yet. -/
theorem posts_added (stepped : outbox.step world action = some next) :
    next.posts = world.posts ∨
      ∃ run endpoints http batch, action = .deliver run endpoints http ∧
        world.runs[run]? = some (.fetched batch) ∧
        next.posts = world.posts ++
          (deliverEvents http (activeEndpoints endpoints) batch).posts.map fun post =>
            (run, post) := by
  cases steps_of_step stepped with
  | @delivered run endpoints http batch was =>
      exact .inr ⟨run, endpoints, http, batch, rfl, was, rfl⟩
  | _ => exact .inl rfl

theorem made_of_step (invariant : RequestInvariant start actions world)
    (ran : outbox.run start actions = some world)
    (stepped : outbox.step world action = some next) {post : Post}
    (member : (run, post) ∈ next.posts) :
    ∃ event, event.pk = post.1 ∧ FetchedDue start (actions ++ [action]) run event ∧
      SentTo start (actions ++ [action]) run event post.2 := by
  have earlier : (run, post) ∈ world.posts → ∃ event, event.pk = post.1 ∧
      FetchedDue start (actions ++ [action]) run event ∧
      SentTo start (actions ++ [action]) run event post.2 := by
    intro old
    obtain ⟨event, key, fetched, sent⟩ := invariant.made run post old
    exact ⟨event, key, fetched.append _, sent.append _⟩
  rcases posts_added stepped with same | ⟨number, endpoints, http, batch, rfl, was, grown⟩
  · exact earlier (same ▸ member)
  · rw [grown, List.mem_append, List.mem_map] at member
    rcases member with old | ⟨posted, among, same⟩
    · exact earlier old
    · cases same
      obtain ⟨event, inBatch, key, endpoint, active, matched, destination⟩ :=
        mem_deliverEvents_posts among
      obtain ⟨inRows, isActive⟩ := List.mem_filter.mp active
      exact ⟨event, key, ((invariant.fetched _ _ was).2 event inBatch).append _, world,
        endpoints, http, endpoint, takes_last ran, inRows, isActive, matched, destination⟩

theorem posts_nodup_of_step (invariant : RequestInvariant start actions world)
    (stepped : outbox.step world action = some next)
    (loads : LoadsDistinct (actions ++ [action])) : next.posts.Nodup := by
  have before : world.posts.Nodup := invariant.distinct fun run endpoints http member =>
    loads run endpoints http (List.mem_append_left _ member)
  rcases posts_added stepped with same | ⟨run, endpoints, http, batch, rfl, was, grown⟩
  · exact same ▸ before
  · have endpointsDistinct : ((activeEndpoints endpoints).map (·.pk)).Nodup :=
      (loads run endpoints http (by simp)).sublist (List.filter_sublist.map _)
    have posts := deliverEvents_posts_nodup http endpointsDistinct
      (invariant.fetched run _ was).1
    rw [grown, List.nodup_append]
    refine ⟨before, posts.map (Prod.mk_right_injective run), ?_⟩
    intro old among new added same
    subst same
    obtain ⟨post, _, rfl⟩ := List.mem_map.mp added
    -- A run that has sent something is past phase 1.
    obtain ⟨phase, found, sent⟩ := invariant.locks.sent run post among
    cases was.symm.trans found
    cases sent

theorem RequestInvariant.step (invariant : RequestInvariant start actions world)
    (ran : outbox.run start actions = some world)
    (stepped : outbox.step world action = some next) :
    RequestInvariant start (actions ++ [action]) next :=
  ⟨step_lockInvariant invariant.locks stepped,
    fun _ _ found => fetched_of_step invariant ran stepped found,
    fun _ _ member => made_of_step invariant ran stepped member,
    posts_nodup_of_step invariant stepped⟩

end Requests

/-- In every interleaving, each request is made for an event that its run has read PENDING and
due, to an endpoint that is active and subscribed to it, and no run makes a request twice. -/
theorem requests_are_due_and_single {events : EventTable} {actions : List Action} {final : World}
    (ran : outbox.run (.init events) actions = some final) :
    (∀ run post, (run, post) ∈ final.posts → ∃ event, event.pk = post.1 ∧
      FetchedDue (.init events) actions run event ∧
      SentTo (.init events) actions run event post.2) ∧
    (LoadsDistinct actions → final.posts.Nodup) :=
  have invariant : RequestInvariant (.init events) actions final :=
    run_induction _ (requestInvariant_init events)
      (fun _ _ _ _ reached stepped invariant => invariant.step reached stepped) ran
  ⟨invariant.made, invariant.distinct⟩

theorem requests_are_due_and_single_deliverOnce :
    (Sample.after .empty Sample.deliverOnce).posts = [(0, Sample.key, Sample.endpoint.pk)] ∧
      ∃ event, event.pk = Sample.key ∧ FetchedDue (.init .empty) Sample.deliverOnce 0 event := by
  have ran : outbox.run (.init .empty) Sample.deliverOnce =
      some (Sample.after .empty Sample.deliverOnce) := rfl
  obtain ⟨event, key, fetched, _⟩ :=
    (requests_are_due_and_single ran).1 0 (Sample.key, Sample.endpoint.pk) List.mem_cons_self
  exact ⟨rfl, event, key, fetched⟩

end Doorito.Common
