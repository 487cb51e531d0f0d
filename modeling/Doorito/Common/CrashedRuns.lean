import Doorito.Common.EventLocks
import Doorito.Foundation.History

/-! Delivery runs that end before phase 3 has committed: the worker dies, an exception other
than the soft time limit leaves phase 2, or the transaction of phase 3 is rolled back. The
requests that such a run has made stay made, but the table is one that the outbox reaches
without the run. -/

set_option autoImplicit false

namespace Doorito.Common

open Foundation Machine

/-- The step does not commit phase 3 of a run that is lost. -/
def CommitsNothing (lost : Nat → Bool) (world : World) (action : Action) : Prop :=
  ∀ run now random refuses batch results, action = .update run now random refuses →
    lost run = true → world.runs[run]? = some (.delivered batch results) →
      ∃ error, updateEvents now random refuses results batch ⟨world.events, 0, 0⟩ = .error error

/-- The world without the lost runs: they have found nothing to deliver and ended at once. -/
structure WithoutLost (lost : Nat → Bool) (world mirror : World) : Prop where
  events : mirror.events = world.events
  issued : mirror.issued = world.issued
  cleanups : mirror.cleanups = world.cleanups
  length : mirror.runs.length = world.runs.length
  others : ∀ run, lost run = false → mirror.runs[run]? = world.runs[run]?
  ended : ∀ run phase, lost run = true → mirror.runs[run]? = some phase → phase = .ended
  posts : mirror.posts = world.posts.filter fun sent => !lost sent.1

namespace WithoutLost

variable {lost : Nat → Bool} {world mirror next : World}

theorem isLocked (without : WithoutLost lost world mirror) {pk : Uuid}
    (locked : mirror.isLocked pk = true) : world.isLocked pk = true := by
  simp only [World.isLocked, List.any_eq_true, decide_eq_true_eq] at locked ⊢
  obtain ⟨phase, member, holds⟩ := locked
  obtain ⟨run, found⟩ := List.getElem?_of_mem member
  cases gone : lost run with
  | true =>
      rw [without.ended run phase gone found] at holds
      cases holds
  | false =>
      exact ⟨phase, List.mem_of_getElem? (without.others run gone ▸ found), holds⟩

theorem not_blocks (without : WithoutLost lost world mirror) {condition : OutboxEvent → Bool}
    (free : ¬ world.blocks condition = true) : ¬ mirror.blocks condition = true := by
  intro blocked
  simp only [World.blocks, List.any_eq_true, Bool.and_eq_true] at blocked
  obtain ⟨row, member, chosen, locked⟩ := blocked
  refine free (List.any_eq_true.mpr ⟨row, without.events ▸ member, ?_⟩)
  rw [chosen, without.isLocked locked]
  rfl

/-- A turn of a run that is not lost is taken in both worlds. -/
theorem setRun (without : WithoutLost lost world mirror) {run : Nat} {phase : RunPhase}
    (kept : lost run = false) (events : EventTable) (posts : List Post) :
    WithoutLost lost
      { world with
        events := events
        runs := world.runs.set run phase
        posts := world.posts ++ posts.map fun post => (run, post) }
      { mirror with
        events := events
        runs := mirror.runs.set run phase
        posts := mirror.posts ++ posts.map fun post => (run, post) } := by
  refine ⟨rfl, without.issued, without.cleanups, ?_, ?_, ?_, ?_⟩
  · simp only [List.length_set]
    exact without.length
  · intro other otherKept
    simp only [List.getElem?_set, without.length]
    split
    · rfl
    · exact without.others other otherKept
  · intro other found gone
    simp only [List.getElem?_set]
    split
    · next same => exact absurd (same ▸ gone) (by simp [kept])
    · exact without.ended other found gone
  · have all : (posts.map fun post => (run, post)).filter (fun sent => !lost sent.1) =
        posts.map fun post => (run, post) := by
      rw [List.filter_eq_self]
      intro sent member
      obtain ⟨post, _, rfl⟩ := List.mem_map.mp member
      simp [kept]
    rw [List.filter_append, all, without.posts]

/-- A turn of a lost run is taken in one world only. -/
theorem loseRun (without : WithoutLost lost world mirror) {run : Nat} {phase : RunPhase}
    (gone : lost run = true) (posts : List Post) :
    WithoutLost lost
      { world with
        runs := world.runs.set run phase
        posts := world.posts ++ posts.map fun post => (run, post) } mirror := by
  refine ⟨without.events, without.issued, without.cleanups, ?_, ?_, without.ended, ?_⟩
  · simp only [List.length_set]
    exact without.length
  · intro other kept
    have different : run ≠ other := fun same => by simp [same, kept] at gone
    simp only [List.getElem?_set_ne different]
    exact without.others other kept
  · rw [List.filter_append, without.posts]
    have none : (posts.map fun post => (run, post)).filter (fun sent => !lost sent.1) = [] := by
      rw [List.filter_eq_nil_iff]
      intro sent member
      obtain ⟨post, _, rfl⟩ := List.mem_map.mp member
      simp [gone]
    rw [none, List.append_nil]

/-- A run begins in both worlds. A lost one passes over all rows; any other passes over the
rows that the lost ones have locked. -/
theorem startRun (without : WithoutLost lost world mirror) {batch other : List OutboxEvent}
    (found : other = if lost world.runs.length then [] else batch) :
    WithoutLost lost (world.startRun batch) (mirror.startRun other) := by
  refine ⟨without.events, without.issued, without.cleanups, ?_, ?_, ?_, without.posts⟩
  · simp only [World.startRun, List.length_append, without.length, List.length_singleton]
  · intro run kept
    simp only [World.startRun, List.getElem?_append, without.length]
    split
    · exact without.others run kept
    · by_cases new : run = world.runs.length
      · rw [← new, kept] at found
        rw [found]
        rfl
      · rw [List.getElem?_eq_none, List.getElem?_eq_none] <;> simp <;> omega
  · intro run phase gone was
    simp only [World.startRun, List.getElem?_append, without.length] at was
    split at was
    · exact without.ended run phase gone was
    · next outside =>
      obtain ⟨index, shape⟩ := List.getElem?_eq_some_iff.mp was
      have new : run = world.runs.length := by
        simp only [List.length_singleton] at index
        omega
      rw [← new, gone] at found
      simp only [List.getElem_singleton, found] at shape
      exact shape.symm

theorem fetchPending_eq (without : WithoutLost lost world mirror) (now : Time)
    (batchSize : Nat) (order : RowOrder OutboxEvent) (skipped : Uuid → Bool) :
    fetchPending now batchSize order
        (fun pk => mirror.isLocked pk || (world.isLocked pk || skipped pk)) mirror.events =
      fetchPending now batchSize order (fun pk => world.isLocked pk || skipped pk)
        world.events := by
  have locked : (fun pk => mirror.isLocked pk || (world.isLocked pk || skipped pk)) =
      fun pk => world.isLocked pk || skipped pk := by
    funext pk
    cases inMirror : mirror.isLocked pk with
    | false => rfl
    | true => simp [without.isLocked inMirror]
  rw [locked, without.events]

end WithoutLost

theorem fetchPending_of_all_skipped (now : Time) (batchSize : Nat)
    (order : RowOrder OutboxEvent) (world : World) :
    fetchPending now batchSize order (fun pk => world.isLocked pk || true) world.events = [] := by
  rw [List.eq_nil_iff_forall_not_mem]
  intro event member
  simpa using (mem_fetchPending member).2.2

section Step

variable {lost : Nat → Bool} {world mirror next : World} {action : Action}

theorem stays (without : WithoutLost lost next mirror) :
    ∃ actions later, outbox.run mirror actions = some later ∧ WithoutLost lost next later :=
  ⟨[], mirror, rfl, without⟩

theorem moves (taken : Action) (later : World) (stepped : outbox.step mirror taken = some later)
    (without : WithoutLost lost next later) :
    ∃ actions later, outbox.run mirror actions = some later ∧ WithoutLost lost next later :=
  ⟨[taken], later, outbox.run_cons_eq_some_iff.mpr ⟨later, stepped, rfl⟩, without⟩

/-- The turn of a run that is not lost is taken, and that of a lost run is left out. -/
theorem step_without (without : WithoutLost lost world mirror)
    (condition : CommitsNothing lost world action)
    (stepped : outbox.step world action = some next) :
    ∃ actions later, outbox.run mirror actions = some later ∧ WithoutLost lost next later := by
  cases steps_of_step stepped with
  | @emitted now pk arguments events fresh emits =>
      refine moves (.emitEvent now pk arguments)
        { mirror with events, issued := pk :: mirror.issued } ?_ ?_
      · simp only [outbox, World.step, without.issued, if_neg fresh, without.events, emits]
      · exact { without with events := rfl, issued := by simp [without.issued] }
  | refused => exact stays without
  | @begun now batchSize order skipped =>
      cases gone : lost world.runs.length with
      | true =>
          refine moves (.beginFetch now batchSize order fun _ => true) _ rfl (without.startRun ?_)
          rw [gone, fetchPending_of_all_skipped]
          rfl
      | false =>
          refine moves (.beginFetch now batchSize order
            fun pk => world.isLocked pk || skipped pk) _ rfl (without.startRun ?_)
          rw [gone, without.fetchPending_eq]
          rfl
  | @committed run batch was =>
      cases gone : lost run with
      | true => exact stays (by simpa [World.setRun] using without.loseRun gone [])
      | false =>
          refine moves (.commitFetch run) (mirror.setRun run (.fetched batch)) ?_ ?_
          · simp only [outbox, World.step, without.others run gone, was]
          · simpa [World.setRun, without.events] using without.setRun gone world.events []
  | @delivered run endpoints http batch was =>
      cases gone : lost run with
      | true => exact stays (without.loseRun gone _)
      | false =>
          refine moves (.deliver run endpoints http)
            (mirror.deliverBatch run endpoints http batch) ?_ ?_
          · simp only [outbox, World.step, without.others run gone, was]
          · simpa [World.deliverBatch, without.events] using without.setRun gone world.events _
  | @updated run now random refuses batch results was free =>
      cases gone : lost run with
      | true =>
          obtain ⟨error, rolledBack⟩ := condition run now random refuses batch results rfl gone was
          exact stays (by simpa [World.updateBatch, rolledBack] using without.loseRun gone [])
      | false =>
          refine moves (.update run now random refuses)
            (mirror.updateBatch run now random refuses batch results) ?_ ?_
          · simp only [outbox, World.step, without.others run gone, was,
              if_neg (without.not_blocks free)]
          · simpa [World.updateBatch, without.events] using without.setRun gone _ []
  | @died run phase was running =>
      cases gone : lost run with
      | true => exact stays (by simpa [World.setRun] using without.loseRun gone [])
      | false =>
          refine moves (.die run) (mirror.setRun run .ended) ?_ ?_
          · simp only [outbox, World.step, without.others run gone, was]
          · simpa [World.setRun, without.events] using without.setRun gone world.events []
  | @reset now selected free =>
      refine moves (.retryFailedEvents now selected)
        { mirror with events := retryFailedEvents now selected world.events } ?_
        { without with events := rfl }
      simp only [outbox, World.step, if_neg (without.not_blocks free), without.events]
  | @counted now retentionHours =>
      refine moves (.cleanupCount now retentionHours) _ rfl { without with cleanups := ?_ }
      simp only [World.startCleanup, without.events, without.cleanups]
  | @selected cleanup cutoff totalTerminal was =>
      refine moves (.cleanupSelect cleanup) (mirror.setCleanup cleanup
        (.selected totalTerminal (selectTerminal cutoff world.events))) ?_
        { without with cleanups := ?_ }
      · simp only [outbox, World.step, without.cleanups, was, without.events]
      · simp only [World.setCleanup, without.cleanups]
  | @deleted cleanup totalTerminal batchPks was free =>
      refine moves (.cleanupDelete cleanup) { mirror.setCleanup cleanup .ended with
        events := deleteEvents batchPks world.events } ?_
        { without with events := rfl, cleanups := ?_ }
      · simp only [outbox, World.step, without.cleanups, was,
          if_neg (without.not_blocks free), without.events]
      · simp only [World.setCleanup, without.cleanups]
  | @cleanupDied cleanup phase was running =>
      refine moves (.cleanupDie cleanup) (mirror.setCleanup cleanup .ended) ?_
        { without with cleanups := ?_ }
      · simp only [outbox, World.step, without.cleanups, was]
      · simp only [World.setCleanup, without.cleanups]

end Step

/-- In every interleaving, the runs that end before their phase 3 has committed leave no trace
in the outbox: it is reached as well by a run of the outbox in which they find nothing to do,
with the same table and cleanups, and with the requests of the other runs only. -/
theorem lost_runs_leave_no_trace (lost : Nat → Bool) {events : EventTable} {actions : List Action}
    {final : World} (meets : outbox.Meets (CommitsNothing lost) (.init events) actions)
    (ran : outbox.run (.init events) actions = some final) :
    ∃ others mirror, outbox.run (.init events) others = some mirror ∧
      mirror.events = final.events ∧ mirror.cleanups = final.cleanups ∧
      mirror.posts = (final.posts.filter fun sent => !lost sent.1) ∧
      ∀ run, lost run = true → ∀ phase, mirror.runs[run]? = some phase → phase = .ended := by
  have start : WithoutLost lost (.init events) (.init events) := by
    refine ⟨rfl, rfl, rfl, rfl, fun _ _ => rfl, ?_, rfl⟩
    intro run phase _ found
    simp [World.init] at found
  have step : ∀ state action next mirror, WithoutLost lost state mirror →
      CommitsNothing lost state action → outbox.step state action = some next →
        ∃ actions later, outbox.run mirror actions = some later ∧ WithoutLost lost next later :=
    fun _ _ _ _ held met stepped => step_without held met stepped
  obtain ⟨others, mirror, mirrored, without⟩ := run_simulated_of_meets step start meets ran
  exact ⟨others, mirror, mirrored, without.events, without.cleanups, without.posts,
    fun run gone phase found => without.ended run phase gone found⟩

namespace Sample

/-- A worker that dies after its request has been answered with 200. -/
def diesDelivering : List Action :=
  [.emitEvent 0 key arguments, .beginFetch 0 20 .stored fun _ => false, .commitFetch 0,
    .deliver 0 [endpoint] (answering 200), .die 0]

end Sample

theorem lost_runs_leave_no_trace_diesDelivering :
    ∃ others mirror, outbox.run (.init .empty) others = some mirror ∧
      mirror.events = (Sample.after .empty Sample.diesDelivering).events ∧ mirror.posts = [] := by
  have ran : outbox.run (.init .empty) Sample.diesDelivering =
      some (Sample.after .empty Sample.diesDelivering) := rfl
  have meets : outbox.Meets (CommitsNothing fun _ => true) (.init .empty)
      Sample.diesDelivering := by
    apply meets_of_forall
    intro action member world run now random refuses batch results is
    subst is
    simp [Sample.diesDelivering] at member
  obtain ⟨others, mirror, mirrored, same, _, posts, _⟩ := lost_runs_leave_no_trace _ meets ran
  exact ⟨others, mirror, mirrored, same, posts⟩

end Doorito.Common
