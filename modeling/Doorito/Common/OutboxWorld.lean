import Doorito.Common.UpdateProperties
import Doorito.Foundation.Machine

/-! The outbox under concurrency. Any number of delivery runs and cleanup runs
are in progress, each standing between two of its database steps, while events
are emitted and failed events are reset. One action is one transaction, or one
end of the transaction that holds the row locks of a fetch.

A row lock blocks writers: an action that would write a locked row is not enabled
until the lock is gone. Transactions that are a single action here may hold locks
while a query runs; the rows such a query skips are a choice of the fetch. -/

set_option autoImplicit false

namespace Doorito.Common

open Foundation

/-- Where a delivery run stands: phase 1 holds the locks of its rows, phase 1 has committed,
phase 2 is over, or the run has returned, raised or died. The events are the objects that
it read in phase 1. -/
inductive RunPhase where
  | fetching (batch : List OutboxEvent)
  | fetched (batch : List OutboxEvent)
  | delivered (batch : List OutboxEvent) (results : Results)
  | ended

inductive CleanupPhase where
  | counted (cutoff : Time) (totalTerminal : Nat)
  | selected (totalTerminal : Nat) (batchPks : List Uuid)
  | ended

/-- The database table, the keys ever given to events, the runs, and the requests
made so far, each with the number of its run. -/
structure World where
  events : EventTable
  issued : List Uuid
  runs : List RunPhase
  cleanups : List CleanupPhase
  posts : List (Nat × Post)

/-- One database step, with the choices that the state leaves open. Runs and
cleanups are named by their numbers in the order of their start. -/
inductive Action where
  | emitEvent (now : Time) (pk : Uuid) (arguments : EmitArguments)
  | beginFetch (now : Time) (batchSize : Nat) (order : RowOrder OutboxEvent)
      (skipped : Uuid → Bool)
  | commitFetch (run : Nat)
  | deliver (run : Nat) (endpoints : List WebhookEndpoint) (http : Http)
  | update (run : Nat) (now : Time) (random : Uuid → Draw) (refuses : OutboxEvent → Bool)
  | die (run : Nat)
  | retryFailedEvents (now : Time) (selected : List Uuid)
  | cleanupCount (now : Time) (retentionHours : Int)
  | cleanupSelect (cleanup : Nat)
  | cleanupDelete (cleanup : Nat)
  | cleanupDie (cleanup : Nat)

/-- The objects a run in progress works on. -/
def RunPhase.batch : RunPhase → List OutboxEvent
  | .fetching batch | .fetched batch | .delivered batch _ => batch
  | .ended => []

def RunPhase.lockedKeys : RunPhase → List Uuid
  | .fetching batch => batch.map (·.pk)
  | .fetched _ | .delivered _ _ | .ended => []

namespace World

def init (events : EventTable) : World := ⟨events, events.keys, [], [], []⟩

def isLocked (world : World) (pk : Uuid) : Bool :=
  world.runs.any fun phase => pk ∈ phase.lockedKeys

def blocks (world : World) (condition : OutboxEvent → Bool) : Bool :=
  world.events.rows.any fun event => condition event && world.isLocked event.pk

def setRun (world : World) (run : Nat) (phase : RunPhase) : World :=
  { world with runs := world.runs.set run phase }

def setCleanup (world : World) (cleanup : Nat) (phase : CleanupPhase) : World :=
  { world with cleanups := world.cleanups.set cleanup phase }

/-- A run without due events returns at once. -/
def startRun (world : World) (batch : List OutboxEvent) : World :=
  { world with
    runs := world.runs ++ [if batch.isEmpty then .ended else .fetching batch] }

/-- Phase 2 of a run: its requests are made, and it goes on with the results unless
an exception leaves the function. -/
def deliverBatch (world : World) (run : Nat) (endpoints : List WebhookEndpoint)
    (http : Http) (batch : List OutboxEvent) : World :=
  let delivery := deliverEvents http (activeEndpoints endpoints) batch
  { world with
    posts := world.posts ++ delivery.posts.map fun post => (run, post)
    runs := world.runs.set run
      (match delivery.caught with
        | .ok results => .delivered batch results
        | .error _ => .ended) }

/-- Phase 3 of a run: commit or roll back, and end. -/
def updateBatch (world : World) (run : Nat) (now : Time) (random : Uuid → Draw)
    (refuses : OutboxEvent → Bool) (batch : List OutboxEvent) (results : Results) : World :=
  { world with
    events :=
      match updateEvents now random refuses results batch ⟨world.events, 0, 0⟩ with
      | .ok progress => progress.events
      | .error _ => world.events
    runs := world.runs.set run .ended }

/-- A cleanup that counts nothing returns at once. -/
def startCleanup (world : World) (cutoff : Time) : World :=
  let totalTerminal := world.events.count (·.isExpiredTerminal cutoff)
  { world with
    cleanups := world.cleanups ++
      [if totalTerminal = 0 then .ended else .counted cutoff totalTerminal] }

def step (world : World) : Action → Option World
  | .emitEvent now pk arguments =>
      if pk ∈ world.issued then none
      else
        match Doorito.Common.emitEvent now pk arguments world.events with
        | .ok events => some { world with events, issued := pk :: world.issued }
        | .error _ => some world
  | .beginFetch now batchSize order skipped =>
      some (world.startRun (fetchPending now batchSize order
        (fun pk => world.isLocked pk || skipped pk) world.events))
  | .commitFetch run =>
      match world.runs[run]? with
      | some (.fetching batch) => some (world.setRun run (.fetched batch))
      | _ => none
  | .deliver run endpoints http =>
      match world.runs[run]? with
      | some (.fetched batch) => some (world.deliverBatch run endpoints http batch)
      | _ => none
  | .update run now random refuses =>
      match world.runs[run]? with
      | some (.delivered batch results) =>
          if world.blocks (fun event => (results.lookup event.pk).isSome) then none
          else some (world.updateBatch run now random refuses batch results)
      | _ => none
  | .die run =>
      match world.runs[run]? with
      | none | some .ended => none
      | some _ => some (world.setRun run .ended)
  | .retryFailedEvents now selected =>
      if world.blocks (fun event => event.status = .failed ∧ event.pk ∈ selected) then none
      else some { world with
        events := Doorito.Common.retryFailedEvents now selected world.events }
  | .cleanupCount now retentionHours =>
      some (world.startCleanup (now - hours retentionHours))
  | .cleanupSelect cleanup =>
      match world.cleanups[cleanup]? with
      | some (.counted cutoff totalTerminal) =>
          some (world.setCleanup cleanup
            (.selected totalTerminal (selectTerminal cutoff world.events)))
      | _ => none
  | .cleanupDelete cleanup =>
      match world.cleanups[cleanup]? with
      | some (.selected _ batchPks) =>
          if world.blocks (fun event => event.pk ∈ batchPks) then none
          else some { world.setCleanup cleanup .ended with
            events := deleteEvents batchPks world.events }
      | _ => none
  | .cleanupDie cleanup =>
      match world.cleanups[cleanup]? with
      | none | some .ended => none
      | some _ => some (world.setCleanup cleanup .ended)

end World

def outbox : Machine World Action := ⟨World.step⟩

/-- Everything a step can do, with what it finds. -/
inductive World.Steps (world : World) : Action → World → Prop where
  | emitted {now pk arguments events} (fresh : pk ∉ world.issued)
      (emits : emitEvent now pk arguments world.events = .ok events) :
      Steps world (.emitEvent now pk arguments)
        { world with events, issued := pk :: world.issued }
  | refused {now pk arguments} : Steps world (.emitEvent now pk arguments) world
  | begun {now batchSize order skipped} :
      Steps world (.beginFetch now batchSize order skipped)
        (world.startRun (fetchPending now batchSize order
          (fun pk => world.isLocked pk || skipped pk) world.events))
  | committed {run batch} (was : world.runs[run]? = some (.fetching batch)) :
      Steps world (.commitFetch run) (world.setRun run (.fetched batch))
  | delivered {run endpoints http batch} (was : world.runs[run]? = some (.fetched batch)) :
      Steps world (.deliver run endpoints http) (world.deliverBatch run endpoints http batch)
  | updated {run now random refuses batch results}
      (was : world.runs[run]? = some (.delivered batch results))
      (free : ¬ world.blocks (fun event => (results.lookup event.pk).isSome) = true) :
      Steps world (.update run now random refuses)
        (world.updateBatch run now random refuses batch results)
  | died {run phase} (was : world.runs[run]? = some phase) (running : phase ≠ .ended) :
      Steps world (.die run) (world.setRun run .ended)
  | reset {now selected}
      (free : ¬ world.blocks (fun event => event.status = .failed ∧ event.pk ∈ selected) = true) :
      Steps world (.retryFailedEvents now selected)
        { world with events := retryFailedEvents now selected world.events }
  | counted {now retentionHours} :
      Steps world (.cleanupCount now retentionHours)
        (world.startCleanup (now - hours retentionHours))
  | selected {cleanup cutoff totalTerminal}
      (was : world.cleanups[cleanup]? = some (.counted cutoff totalTerminal)) :
      Steps world (.cleanupSelect cleanup)
        (world.setCleanup cleanup (.selected totalTerminal (selectTerminal cutoff world.events)))
  | deleted {cleanup totalTerminal batchPks}
      (was : world.cleanups[cleanup]? = some (.selected totalTerminal batchPks))
      (free : ¬ world.blocks (fun event => event.pk ∈ batchPks) = true) :
      Steps world (.cleanupDelete cleanup)
        { world.setCleanup cleanup .ended with events := deleteEvents batchPks world.events }
  | cleanupDied {cleanup phase} (was : world.cleanups[cleanup]? = some phase)
      (running : phase ≠ .ended) :
      Steps world (.cleanupDie cleanup) (world.setCleanup cleanup .ended)

theorem steps_of_step {world next : World} {action : Action}
    (stepped : outbox.step world action = some next) : world.Steps action next := by
  cases action with
  | emitEvent now pk arguments =>
      simp only [outbox, World.step] at stepped
      split at stepped
      · cases stepped
      · next fresh =>
        split at stepped <;> cases stepped
        · next events emits => exact .emitted fresh emits
        · exact .refused
  | beginFetch now batchSize order skipped =>
      cases stepped
      exact .begun
  | commitFetch run =>
      simp only [outbox, World.step] at stepped
      split at stepped <;> cases stepped
      · next batch was => exact .committed was
  | deliver run endpoints http =>
      simp only [outbox, World.step] at stepped
      split at stepped <;> cases stepped
      · next batch was => exact .delivered was
  | update run now random refuses =>
      simp only [outbox, World.step] at stepped
      split at stepped
      · next batch results was =>
        split at stepped <;> cases stepped
        · next free => exact .updated was free
      · cases stepped
  | die run =>
      simp only [outbox, World.step] at stepped
      split at stepped <;> cases stepped
      · next phase running was => exact .died was running
  | retryFailedEvents now selected =>
      simp only [outbox, World.step] at stepped
      split at stepped <;> cases stepped
      · next free => exact .reset free
  | cleanupCount now retentionHours =>
      cases stepped
      exact .counted
  | cleanupSelect cleanup =>
      simp only [outbox, World.step] at stepped
      split at stepped <;> cases stepped
      · next cutoff totalTerminal was => exact .selected was
  | cleanupDelete cleanup =>
      simp only [outbox, World.step] at stepped
      split at stepped
      · next totalTerminal batchPks was =>
        split at stepped <;> cases stepped
        · next free => exact .deleted was free
      · cases stepped
  | cleanupDie cleanup =>
      simp only [outbox, World.step] at stepped
      split at stepped <;> cases stepped
      · next phase running was => exact .cleanupDied was running

/-- Phase 3 can save every result that it has. -/
def World.Commits (world : World) (now : Time) (random : Uuid → Draw)
    (refuses : OutboxEvent → Bool) (batch : List OutboxEvent) (results : Results) : Prop :=
  ∀ event ∈ batch, ∀ result, results.lookup event.pk = some result →
    CanSave refuses world.events (applyResult now (random event.pk) result event)

/-- The row is the old one with the columns of an object that the run saves. -/
def Saved (world : World) (run : Nat) (now : Time) (random : Uuid → Draw)
    (refuses : OutboxEvent → Bool) (old row : OutboxEvent) : Prop :=
  ∃ batch results event result,
    world.runs[run]? = some (.delivered batch results) ∧
      world.Commits now random refuses batch results ∧ event ∈ batch ∧
      results.lookup event.pk = some result ∧ event.pk = old.pk ∧
      row = (applyResult now (random event.pk) result event).saveOnto now old

/-- Everything a step can do to the rows of the table. -/
inductive RowOrigin (world : World) (action : Action) (next : World)
    (row : OutboxEvent) : Prop where
  | kept (member : row ∈ world.events.rows)
  | emitted (now : Time) (pk : Uuid) (arguments : EmitArguments)
      (is : action = .emitEvent now pk arguments) (fresh : pk ∉ world.issued)
      (recorded : pk ∈ next.issued) (shape : row = arguments.event now pk)
  | saved (run : Nat) (now : Time) (random : Uuid → Draw) (refuses : OutboxEvent → Bool)
      (old : OutboxEvent) (is : action = .update run now random refuses)
      (member : old ∈ world.events.rows) (saves : Saved world run now random refuses old row)
  | reset (now : Time) (selected : List Uuid) (old : OutboxEvent)
      (is : action = .retryFailedEvents now selected) (member : old ∈ world.events.rows)
      (failed : old.status = .failed) (chosen : old.pk ∈ selected)
      (shape : row = old.reset now)

theorem step_row_origin {world next : World} {action : Action}
    (stepped : outbox.step world action = some next) {row : OutboxEvent}
    (member : row ∈ next.events.rows) : RowOrigin world action next row := by
  cases steps_of_step stepped with
  | @emitted now pk arguments events fresh emits =>
      rw [emitEvent_rows emits] at member
      rcases List.mem_append.mp member with old | new
      · exact .kept old
      · exact .emitted now pk arguments rfl fresh List.mem_cons_self (by simpa using new)
  | @updated run now random refuses batch results was =>
      simp only [World.updateBatch] at member
      cases updated : updateEvents now random refuses results batch ⟨world.events, 0, 0⟩ with
      | error error =>
          simp only [updated] at member
          exact .kept member
      | ok progress =>
          simp only [updated] at member
          rw [updateEvents_rows updated, List.mem_map] at member
          obtain ⟨old, oldMember, shape⟩ := member
          rcases updateRow_cases batch old with
            kept | ⟨event, eventMember, result, lookup, key, saved⟩
          · exact .kept (by rwa [← shape, kept])
          · exact .saved run now random refuses old rfl oldMember
              ⟨batch, results, event, result, was,
                updateEvents_ok_iff.mp ⟨progress, updated⟩, eventMember, lookup, key,
                shape.symm.trans saved⟩
  | @reset now selected =>
      rcases mem_retryFailedEvents member with old | ⟨old, oldMember, failed, chosen, shape⟩
      · exact .kept old
      · exact .reset now selected old rfl oldMember failed chosen shape
  | deleted was => exact .kept (Table.mem_deleteWhere.mp member).1
  | _ => exact .kept member

/-- A row stays the row of the same event until a cleanup deletes it. -/
theorem step_row_fate {world next : World} {action : Action}
    (stepped : outbox.step world action = some next) {row : OutboxEvent}
    (member : row ∈ world.events.rows) :
    (∃ later ∈ next.events.rows, later.pk = row.pk ∧ later.eventType = row.eventType ∧
      later.idempotencyKey = row.idempotencyKey) ∨
    ∃ cleanup totalTerminal batchPks, action = .cleanupDelete cleanup ∧
      world.cleanups[cleanup]? = some (.selected totalTerminal batchPks) ∧ row.pk ∈ batchPks := by
  have stays : row ∈ next.events.rows →
      ∃ later ∈ next.events.rows, later.pk = row.pk ∧ later.eventType = row.eventType ∧
        later.idempotencyKey = row.idempotencyKey :=
    fun kept => ⟨row, kept, rfl, rfl, rfl⟩
  cases steps_of_step stepped with
  | emitted fresh emits =>
      exact .inl (stays (emitEvent_rows emits ▸ List.mem_append_left _ member))
  | @updated run now random refuses batch results was =>
      left
      simp only [World.updateBatch]
      cases updated : updateEvents now random refuses results batch ⟨world.events, 0, 0⟩ with
      | error error => exact ⟨row, member, rfl, rfl, rfl⟩
      | ok progress =>
          refine ⟨updateRow now random results batch row, ?_, pk_updateRow _ _, ?_⟩
          · simp only [updateEvents_rows updated]
            exact List.mem_map_of_mem member
          · rcases updateRow_cases batch row with kept | ⟨_, _, _, _, _, saved⟩
            · rw [kept]
              exact ⟨rfl, rfl⟩
            · rw [saved]
              exact ⟨rfl, rfl⟩
  | @reset now selected =>
      left
      refine ⟨if row.status = .failed ∧ row.pk ∈ selected then row.reset now else row, ?_, ?_⟩
      · simp only [retryFailedEvents, Table.mem_updateWhere]
        exact ⟨row, member, by simp⟩
      · split
        · exact ⟨rfl, rfl, rfl⟩
        · exact ⟨rfl, rfl, rfl⟩
  | @deleted cleanup totalTerminal batchPks was =>
      by_cases chosen : row.pk ∈ batchPks
      · exact .inr ⟨cleanup, totalTerminal, batchPks, rfl, was, chosen⟩
      · exact .inl (stays (mem_deleteEvents.mpr ⟨member, chosen⟩))
  | _ => exact .inl (stays member)

theorem step_issued {world next : World} {action : Action}
    (stepped : outbox.step world action = some next) : world.issued ⊆ next.issued := by
  intro pk member
  cases steps_of_step stepped with
  | emitted => exact List.mem_cons_of_mem _ member
  | _ => exact member

/-- Where the phase of a run comes from. -/
inductive PhaseOrigin (world : World) (run : Nat) (phase : RunPhase) : Prop where
  | kept (same : world.runs[run]? = some phase)
  | ended (is : phase = .ended)
  | begun (new : run = world.runs.length) (now : Time) (batchSize : Nat)
      (order : RowOrder OutboxEvent) (skipped : Uuid → Bool)
      (shape : phase = .fetching (fetchPending now batchSize order
        (fun pk => world.isLocked pk || skipped pk) world.events))
  | committed (batch : List OutboxEvent) (was : world.runs[run]? = some (.fetching batch))
      (shape : phase = .fetched batch)
  | delivered (batch : List OutboxEvent) (endpoints : List WebhookEndpoint) (http : Http)
      (was : world.runs[run]? = some (.fetched batch))
      (shape : phase = .delivered batch (deliverEvents http endpoints batch).results)

theorem caught_eq_ok {delivery : Delivery} {results : Results}
    (kept : delivery.caught = .ok results) : results = delivery.results := by
  unfold Delivery.caught at kept
  split at kept <;> cases kept <;> rfl

theorem getElem?_set_cases {runs : List RunPhase} {run other : Nat} {phase new : RunPhase}
    (found : (runs.set run new)[other]? = some phase) :
    runs[other]? = some phase ∨ (other = run ∧ phase = new) := by
  rw [List.getElem?_set] at found
  split_ifs at found with same within
  · exact .inr ⟨same.symm, (Option.some.inj found).symm⟩
  · exact .inl found

theorem step_phase_origin {world next : World} {action : Action}
    (stepped : outbox.step world action = some next) {run : Nat} {phase : RunPhase}
    (found : next.runs[run]? = some phase) : PhaseOrigin world run phase := by
  cases steps_of_step stepped with
  | @begun now batchSize order skipped =>
      simp only [World.startRun, List.getElem?_append] at found
      split at found
      · exact .kept found
      · next outside =>
        obtain ⟨index, shape⟩ := List.getElem?_eq_some_iff.mp found
        have new : run = world.runs.length := by
          simp only [List.length_singleton] at index
          omega
        simp only [List.getElem_singleton] at shape
        split at shape
        · exact .ended shape.symm
        · exact .begun new now batchSize order skipped shape.symm
  | @committed number batch was =>
      rcases getElem?_set_cases found with old | ⟨rfl, new⟩
      · exact .kept old
      · exact .committed batch was new
  | @delivered number endpoints http batch was =>
      rcases getElem?_set_cases found with old | ⟨rfl, new⟩
      · exact .kept old
      · split at new
        · next results kept =>
          rw [caught_eq_ok kept] at new
          exact .delivered batch _ http was new
        · exact .ended new
  | updated was =>
      rcases getElem?_set_cases found with old | ⟨_, new⟩
      · exact .kept old
      · exact .ended new
  | died =>
      rcases getElem?_set_cases found with old | ⟨_, new⟩
      · exact .kept old
      · exact .ended new
  | _ => exact .kept found

def World.RowsIssued (world : World) : Prop :=
  ∀ row ∈ world.events.rows, row.pk ∈ world.issued

theorem rowsIssued_init (events : EventTable) : (World.init events).RowsIssued :=
  fun _ member => Table.mem_keys_of_mem member

theorem step_rowsIssued {world next : World} {action : Action}
    (issued : world.RowsIssued) (stepped : outbox.step world action = some next) :
    next.RowsIssued := by
  intro row member
  have grows := step_issued stepped
  rcases step_row_origin stepped member with
    old | ⟨_, _, _, _, _, recorded, rfl⟩ | ⟨_, _, _, _, old, _, oldMember, saves⟩ |
    ⟨_, _, old, _, oldMember, _, _, rfl⟩
  · exact grows (issued row old)
  · exact recorded
  · obtain ⟨_, _, _, _, _, _, _, _, _, rfl⟩ := saves
    exact grows (issued old oldMember)
  · exact grows (issued old oldMember)

/-! ## A small setting in which runs are evaluated -/

namespace Sample

def fetchTwice : List Action :=
  [.emitEvent 0 key arguments, .beginFetch 0 20 .stored fun _ => false, .commitFetch 0,
    .beginFetch 0 20 .stored fun _ => false, .commitFetch 1]

def finishRun (run : Nat) (now : Time) (statusCode : Nat) : List Action :=
  [.deliver run [endpoint] (answering statusCode), .update run now random takesAll]

def deliverOnce : List Action :=
  [.emitEvent 0 key arguments, .beginFetch 0 20 .stored fun _ => false, .commitFetch 0] ++
    finishRun 0 0 200

/-- The event is delivered; then another one is emitted and refused, and a cleanup runs. -/
def deliverAndGoOn : List Action :=
  deliverOnce ++
    [.emitEvent 1 expiringEvent.pk { arguments with aggregateId := "3" },
      .beginFetch 1 20 .stored fun _ => false, .commitFetch 1] ++
    finishRun 1 1 500 ++
    [.cleanupCount (hours 200) 168, .cleanupSelect 0, .cleanupDelete 0]

def failedTable : EventTable :=
  ⟨[{ event with
      status := .failed
      attempts := 5
      nextAttemptAt := none
      errorMessage := "https://example.org/hook: HTTP 500: " }], List.nodup_singleton _⟩

def selectFailed : List Action := [.cleanupCount (hours 200) 168, .cleanupSelect 0]

def after (events : EventTable) (actions : List Action) : World :=
  (outbox.run (.init events) actions).getD (.init events)

end Sample

end Doorito.Common
