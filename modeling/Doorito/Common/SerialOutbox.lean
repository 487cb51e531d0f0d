import Doorito.Common.BatchDelivery
import Doorito.Common.OutboxWorld

/-! The outbox when whole operations follow one another. A delivery run is one step
here, and the state keeps a record of every run. Every such run of operations is also a
run of the concurrent outbox, in which each operation takes its steps undisturbed. -/

set_option autoImplicit false

namespace Doorito.Common

open Foundation

structure RunRecord where
  input : RunInput
  found : EventTable

def RunRecord.outcome (record : RunRecord) : RunOutcome :=
  processPendingEvents record.input record.found

/-- The table, the keys ever given to events, and the delivery runs so far. -/
structure Serial where
  events : EventTable
  issued : List Uuid
  runs : List RunRecord

inductive Operation where
  | emitEvent (now : Time) (pk : Uuid) (arguments : EmitArguments)
  | processPendingEvents (input : RunInput)
  | retryFailedEvents (now : Time) (selected : List Uuid)
  | cleanupDeliveredEvents (now : Time) (retentionHours : Int)

namespace Serial

def init (events : EventTable) : Serial := ⟨events, events.keys, []⟩

def step (state : Serial) : Operation → Option Serial
  | .emitEvent now pk arguments =>
      if pk ∈ state.issued then none
      else
        match Doorito.Common.emitEvent now pk arguments state.events with
        | .ok events => some { state with events, issued := pk :: state.issued }
        | .error _ => some state
  | .processPendingEvents input =>
      some { state with
        events := (Doorito.Common.processPendingEvents input state.events).events
        runs := state.runs ++ [⟨input, state.events⟩] }
  | .retryFailedEvents now selected =>
      some { state with
        events := Doorito.Common.retryFailedEvents now selected state.events }
  | .cleanupDeliveredEvents now retentionHours =>
      some { state with
        events := (Doorito.Common.cleanupDeliveredEvents now retentionHours state.events).1 }

end Serial

def serialOutbox : Machine Serial Operation := ⟨Serial.step⟩

/-- What a delivery run does to each part of the state. -/
theorem Serial.step_processPendingEvents {state next : Serial} {input : RunInput}
    (stepped : serialOutbox.step state (.processPendingEvents input) = some next) :
    next.events = (Doorito.Common.processPendingEvents input state.events).events ∧
      next.runs = state.runs ++ [⟨input, state.events⟩] ∧ next.issued = state.issued := by
  rw [← Option.some.inj stepped]
  exact ⟨rfl, rfl, rfl⟩

/-! ## Simulation by the concurrent outbox -/

/-- The concurrent outbox rests in the state of the serial one: no run is under way,
and the same requests were made. -/
structure Rests (state : Serial) (world : World) : Prop where
  events : world.events = state.events
  issued : world.issued = state.issued
  runs : ∀ phase ∈ world.runs, phase = .ended
  posts : world.posts.map (·.2) = state.runs.flatMap fun record => record.outcome.posts

section Quiet

variable {world : World} (quiet : ∀ phase ∈ world.runs, phase = .ended)

include quiet in
theorem not_isLocked_of_ended (pk : Uuid) : world.isLocked pk = false := by
  simp only [World.isLocked, List.any_eq_false]
  intro phase member
  rw [quiet phase member]
  simp [RunPhase.lockedKeys]

include quiet in
theorem not_blocks_of_ended (condition : OutboxEvent → Bool) :
    world.blocks condition = false := by
  simp [World.blocks, not_isLocked_of_ended quiet]

end Quiet

theorem fetchPending_of_rests {state : Serial} {world : World} (rests : Rests state world)
    (input : RunInput) :
    fetchPending input.fetchedAt input.batchSize input.order
        (fun pk => world.isLocked pk || false) world.events =
      input.batch state.events := by
  simp [RunInput.batch, not_isLocked_of_ended rests.runs, rests.events]

def World.withRun (world : World) (phase : RunPhase) : World :=
  { world with runs := world.runs ++ [phase] }

section LastRun

variable (world : World) (batch : List OutboxEvent)

@[simp] theorem getElem?_withRun (phase : RunPhase) :
    (world.withRun phase).runs[world.runs.length]? = some phase := by
  simp [World.withRun]

@[simp] theorem set_withRun (phase other : RunPhase) :
    (world.withRun phase).runs.set world.runs.length other = (world.withRun other).runs := by
  simp [World.withRun]

theorem commitFetch_withRun :
    outbox.step (world.withRun (.fetching batch)) (.commitFetch world.runs.length) =
      some (world.withRun (.fetched batch)) := by
  simp only [outbox, World.step, getElem?_withRun, World.setRun, set_withRun]
  rfl

def World.withPosts (delivery : Delivery) : World :=
  { world with
    posts := world.posts ++ delivery.posts.map fun post => (world.runs.length, post) }

theorem deliver_withRun (endpoints : List WebhookEndpoint) (http : Http) :
    outbox.step (world.withRun (.fetched batch)) (.deliver world.runs.length endpoints http) =
      some ((world.withPosts (deliverEvents http (activeEndpoints endpoints) batch)).withRun
        (match (deliverEvents http (activeEndpoints endpoints) batch).caught with
          | .ok results => .delivered batch results
          | .error _ => .ended)) := by
  simp only [outbox, World.step, getElem?_withRun, World.deliverBatch, set_withRun]
  rfl

theorem update_withRun (quiet : ∀ phase ∈ world.runs, phase = .ended) (results : Results)
    (now : Time) (random : Uuid → Draw) (refuses : OutboxEvent → Bool) :
    outbox.step (world.withRun (.delivered batch results))
        (.update world.runs.length now random refuses) =
      some ({ world with
        events :=
          match updateEvents now random refuses results batch ⟨world.events, 0, 0⟩ with
          | .ok progress => progress.events
          | .error _ => world.events }.withRun .ended) := by
  have unlocked : ∀ pk, (world.withRun (.delivered batch results)).isLocked pk = false := by
    intro pk
    have others := not_isLocked_of_ended quiet pk
    simp only [World.isLocked] at others ⊢
    rw [World.withRun, List.any_append, others]
    simp [RunPhase.lockedKeys]
  have free : (world.withRun (.delivered batch results)).blocks
      (fun event => (results.lookup event.pk).isSome) = false := by
    simp [World.blocks, unlocked]
  simp only [outbox, World.step, getElem?_withRun, free, Bool.false_eq_true, if_false,
    World.updateBatch, set_withRun]
  rfl

end LastRun

/-- The steps of one delivery run, one after the other, end as the whole run does. -/
theorem processPendingEvents_simulated {state : Serial} {world : World}
    (rests : Rests state world) (input : RunInput) :
    ∃ actions later, outbox.run world actions = some later ∧
      later.events = (processPendingEvents input state.events).events ∧
      later.issued = world.issued ∧ (∀ phase ∈ later.runs, phase = .ended) ∧
      later.posts = world.posts ++
        (processPendingEvents input state.events).posts.map fun post =>
          (world.runs.length, post) := by
  have ended : ∀ phase ∈ (world.withRun .ended).runs, phase = .ended := by
    intro phase member
    rcases List.mem_append.mp member with old | new
    · exact rests.runs phase old
    · exact List.mem_singleton.mp new
  let start : Action := .beginFetch input.fetchedAt input.batchSize input.order fun _ => false
  have started : outbox.step world start =
      some (world.startRun (input.batch state.events)) := by
    rw [← fetchPending_of_rests rests input]
    rfl
  rw [processPendingEvents_eq]
  cases fetched : input.batch state.events with
  | nil =>
      rw [fetched] at started
      refine ⟨[start], world.withRun .ended, ?_, rests.events, rfl, ended, ?_⟩
      · rw [Machine.run_cons, started]
        rfl
      · simp [deliverAndUpdate, RunInput.delivery, deliverEvents, Delivery.caught, updateEvents,
          World.withRun]
  | cons first rest =>
      rw [fetched] at started
      have fetching : outbox.step world start =
        some (world.withRun (.fetching (first :: rest))) := started
      have sends := deliver_withRun world (first :: rest) input.endpoints input.http
      let posted := world.withPosts (input.delivery (first :: rest))
      cases caught : (input.delivery (first :: rest)).caught with
      | error raised =>
          have delivered : outbox.step (world.withRun (.fetched (first :: rest)))
              (.deliver world.runs.length input.endpoints input.http) =
                some (posted.withRun .ended) := by
            unfold RunInput.delivery at caught
            rw [sends, caught]
            rfl
          refine ⟨[start, .commitFetch world.runs.length,
            .deliver world.runs.length input.endpoints input.http], posted.withRun .ended,
            ?_, ?_, rfl, ended, ?_⟩
          · simp only [Machine.run, fetching, commitFetch_withRun, delivered, Option.bind_some]
          · simp only [deliverAndUpdate, caught]
            exact rests.events
          · simp only [deliverAndUpdate, caught]
            rfl
      | ok results =>
          have delivered : outbox.step (world.withRun (.fetched (first :: rest)))
              (.deliver world.runs.length input.endpoints input.http) =
                some (posted.withRun (.delivered (first :: rest) results)) := by
            unfold RunInput.delivery at caught
            rw [sends, caught]
            rfl
          let whole := deliverAndUpdate input (first :: rest) state.events
          have updated : outbox.step (posted.withRun (.delivered (first :: rest) results))
              (.update world.runs.length input.updatedAt input.random input.refuses) =
                some ({ posted with events := whole.events }.withRun .ended) := by
            have same : posted.events = state.events := rests.events
            refine (update_withRun posted (first :: rest) rests.runs results
              input.updatedAt input.random input.refuses).trans ?_
            simp only [whole, deliverAndUpdate, caught, same]
            cases updateEvents input.updatedAt input.random input.refuses results (first :: rest)
              ⟨state.events, 0, 0⟩ <;> rfl
          refine ⟨[start, .commitFetch world.runs.length,
            .deliver world.runs.length input.endpoints input.http,
            .update world.runs.length input.updatedAt input.random input.refuses],
            { posted with events := whole.events }.withRun .ended, ?_, rfl, rfl, ended, ?_⟩
          · simp only [Machine.run, fetching, commitFetch_withRun, delivered, updated,
              Option.bind_some]
          · simp only [deliverAndUpdate, caught]
            cases updateEvents input.updatedAt input.random input.refuses results (first :: rest)
              ⟨state.events, 0, 0⟩ <;> rfl

def World.withCleanup (world : World) (phase : CleanupPhase) : World :=
  { world with cleanups := world.cleanups ++ [phase] }

section LastCleanup

variable (world : World) (totalTerminal : Nat)

@[simp] theorem getElem?_withCleanup (phase : CleanupPhase) :
    (world.withCleanup phase).cleanups[world.cleanups.length]? = some phase := by
  simp [World.withCleanup]

@[simp] theorem set_withCleanup (phase other : CleanupPhase) :
    (world.withCleanup phase).cleanups.set world.cleanups.length other =
      (world.withCleanup other).cleanups := by
  simp [World.withCleanup]

theorem cleanupSelect_withCleanup (cutoff : Time) :
    outbox.step (world.withCleanup (.counted cutoff totalTerminal))
        (.cleanupSelect world.cleanups.length) =
      some (world.withCleanup (.selected totalTerminal (selectTerminal cutoff world.events))) := by
  simp only [outbox, World.step, getElem?_withCleanup, World.setCleanup, set_withCleanup]
  rfl

theorem cleanupDelete_withCleanup (quiet : ∀ phase ∈ world.runs, phase = .ended)
    (batchPks : List Uuid) :
    outbox.step (world.withCleanup (.selected totalTerminal batchPks))
        (.cleanupDelete world.cleanups.length) =
      some ({ world with events := deleteEvents batchPks world.events }.withCleanup .ended) := by
  have free : (world.withCleanup (.selected totalTerminal batchPks)).blocks
      (fun event => event.pk ∈ batchPks) = false := not_blocks_of_ended quiet _
  simp only [outbox, World.step, getElem?_withCleanup, free, Bool.false_eq_true, if_false,
    World.setCleanup, set_withCleanup]
  rfl

end LastCleanup

theorem cleanupDeliveredEvents_simulated {state : Serial} {world : World}
    (rests : Rests state world) (now : Time) (retentionHours : Int) :
    ∃ actions later, outbox.run world actions = some later ∧
      later.events = (cleanupDeliveredEvents now retentionHours state.events).1 ∧
      later.issued = world.issued ∧ later.runs = world.runs ∧ later.posts = world.posts := by
  let cutoff := now - hours retentionHours
  let totalTerminal := world.events.count (·.isExpiredTerminal cutoff)
  have counted : outbox.step world (.cleanupCount now retentionHours) =
      some (world.withCleanup
        (if totalTerminal = 0 then .ended else .counted cutoff totalTerminal)) := rfl
  rw [← rests.events]
  simp only [cleanupDeliveredEvents]
  split_ifs with nothing
  · refine ⟨[.cleanupCount now retentionHours], world.withCleanup .ended, ?_, rfl, rfl, rfl, rfl⟩
    rw [if_pos nothing] at counted
    rw [Machine.run_cons, counted]
    rfl
  · rw [if_neg nothing] at counted
    refine ⟨[.cleanupCount now retentionHours, .cleanupSelect world.cleanups.length,
      .cleanupDelete world.cleanups.length],
      { world with
        events := deleteEvents (selectTerminal cutoff world.events) world.events
        }.withCleanup .ended, ?_, rfl, rfl, rfl, rfl⟩
    simp only [Machine.run, counted, cleanupSelect_withCleanup,
      cleanupDelete_withCleanup _ _ rests.runs, Option.bind_some]

theorem step_simulated (state : Serial) (operation : Operation) (next : Serial) (world : World)
    (rests : Rests state world) (stepped : serialOutbox.step state operation = some next) :
    ∃ actions later, outbox.run world actions = some later ∧ Rests next later := by
  simp only [serialOutbox] at stepped
  cases operation with
  | emitEvent now pk arguments =>
      simp only [Serial.step] at stepped
      split at stepped
      · cases stepped
      · next fresh =>
        cases emitted : emitEvent now pk arguments state.events with
        | error error =>
            simp only [emitted, Option.some.injEq] at stepped
            subst stepped
            exact ⟨[], world, rfl, rests⟩
        | ok events =>
            simp only [emitted, Option.some.injEq] at stepped
            subst stepped
            refine ⟨[.emitEvent now pk arguments],
              { world with events, issued := pk :: world.issued }, ?_, rfl, ?_, rests.runs,
              rests.posts⟩
            · have one : outbox.step world (.emitEvent now pk arguments) =
                  some { world with events, issued := pk :: world.issued } := by
                simp only [outbox, World.step, rests.events, rests.issued, emitted, if_neg fresh]
              rw [Machine.run_cons, one]
              rfl
            · rw [rests.issued]
  | processPendingEvents input =>
      simp only [Serial.step, Option.some.injEq] at stepped
      subst stepped
      obtain ⟨actions, later, ran, events, issued, runs, posts⟩ :=
        processPendingEvents_simulated rests input
      refine ⟨actions, later, ran, events, issued.trans rests.issued, runs, ?_⟩
      rw [posts, List.map_append, rests.posts]
      simp [RunRecord.outcome]
  | retryFailedEvents now selected =>
      simp only [Serial.step, Option.some.injEq] at stepped
      subst stepped
      refine ⟨[.retryFailedEvents now selected],
        { world with events := retryFailedEvents now selected state.events }, ?_, rfl,
        rests.issued, rests.runs, rests.posts⟩
      have one : outbox.step world (.retryFailedEvents now selected) =
          some { world with events := retryFailedEvents now selected state.events } := by
        simp only [outbox, World.step, not_blocks_of_ended rests.runs, rests.events,
          Bool.false_eq_true, if_false]
      rw [Machine.run_cons, one]
      rfl
  | cleanupDeliveredEvents now retentionHours =>
      simp only [Serial.step, Option.some.injEq] at stepped
      subst stepped
      obtain ⟨actions, later, ran, events, issued, runs, posts⟩ :=
        cleanupDeliveredEvents_simulated rests now retentionHours
      refine ⟨actions, later, ran, events, issued.trans rests.issued, ?_, ?_⟩
      · rw [runs]
        exact rests.runs
      · rw [posts]
        exact rests.posts

/-- Every run of whole operations is a run of the concurrent outbox. -/
theorem serialOutbox_simulated {events : EventTable} {operations : List Operation}
    {final : Serial} (ran : serialOutbox.run (.init events) operations = some final) :
    ∃ actions later, outbox.run (.init events) actions = some later ∧ Rests final later := by
  refine Machine.run_simulated step_simulated ?_ ran
  refine ⟨rfl, rfl, ?_, rfl⟩
  intro phase none
  cases none

end Doorito.Common
