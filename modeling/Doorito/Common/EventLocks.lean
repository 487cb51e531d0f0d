import Doorito.Common.OutboxWorld

/-! Who has an event. The row locks of phase 1 keep an event with one run until that
run commits its fetch. From then on nothing in the table tells that a run is
delivering the event, and another run may fetch and post it as well. -/

set_option autoImplicit false

namespace Doorito.Common

open Foundation

namespace World

/-- The run has the lock on the row of the event: it is in its phase 1. -/
def Locks (world : World) (run : Nat) (pk : Uuid) : Prop :=
  ∃ phase, world.runs[run]? = some phase ∧ pk ∈ phase.lockedKeys

/-- The run has fetched the event, and neither committed its phase 3 nor died. -/
def Holds (world : World) (run : Nat) (pk : Uuid) : Prop :=
  ∃ phase, world.runs[run]? = some phase ∧ pk ∈ phase.batch.map (·.pk)

def Starts (world : World) : Prop := ∃ events, world = .init events

theorem isLocked_of_locks {world : World} {run : Nat} {pk : Uuid}
    (locks : world.Locks run pk) : world.isLocked pk = true := by
  obtain ⟨phase, found, locked⟩ := locks
  exact List.any_eq_true.mpr ⟨phase, List.mem_of_getElem? found, by simpa using locked⟩

end World

def RunPhase.sent : RunPhase → Bool
  | .fetching _ | .fetched _ => false
  | .delivered _ _ | .ended => true

theorem locks_of_step {world next : World} {action : Action}
    (stepped : outbox.step world action = some next) {run : Nat} {pk : Uuid}
    (locks : next.Locks run pk) :
    world.Locks run pk ∨ (run = world.runs.length ∧ world.isLocked pk = false) := by
  obtain ⟨phase, found, locked⟩ := locks
  rcases step_phase_origin stepped found with
    same | rfl | ⟨new, now, batchSize, order, skipped, rfl⟩ | ⟨_, _, rfl⟩ | ⟨_, _, _, _, rfl⟩
  · exact .inl ⟨phase, same, locked⟩
  · cases locked
  · obtain ⟨event, member, rfl⟩ := List.mem_map.mp locked
    have unlocked := (mem_fetchPending member).2.2
    exact .inr ⟨new, (Bool.or_eq_false_iff.mp unlocked).1⟩
  · cases locked
  · cases locked

theorem length_runs_step {world next : World} {action : Action}
    (stepped : outbox.step world action = some next) :
    world.runs.length ≤ next.runs.length := by
  have sets : ∀ run phase, world.runs.length ≤ (world.runs.set run phase).length :=
    fun _ _ => (List.length_set ..).ge
  cases steps_of_step stepped with
  | begun => exact (Nat.le_add_right _ _).trans (List.length_append ..).ge
  | committed => exact sets _ _
  | delivered => exact sets _ _
  | updated => exact sets _ _
  | died => exact sets _ _
  | _ => exact Nat.le_refl _

theorem posts_of_step {world next : World} {action : Action}
    (stepped : outbox.step world action = some next) {run : Nat} {post : Post}
    (member : (run, post) ∈ next.posts) :
    (run, post) ∈ world.posts ∨
      (∃ batch, world.runs[run]? = some (.fetched batch) ∧
        ∃ event ∈ batch, event.pk = post.1) ∧
      ∃ phase, next.runs[run]? = some phase ∧ phase.sent = true := by
  cases steps_of_step stepped with
  | @delivered number endpoints http batch was =>
      rcases List.mem_append.mp member with old | new
      · exact .inl old
      · obtain ⟨sent, sentMember, shape⟩ := List.mem_map.mp new
        cases shape
        obtain ⟨event, eventMember, key, _⟩ := deliverEvents_posts http _ sentMember
        refine .inr ⟨⟨batch, was, event, eventMember, key⟩, ?_⟩
        have within := (List.getElem?_eq_some_iff.mp was).1
        refine ⟨_, List.getElem?_set_self within, ?_⟩
        split <;> rfl
  | _ => exact .inl member

/-- A run that has sent requests is past its phase 2, and no two runs have one lock. -/
structure LockInvariant (world : World) : Prop where
  exclusive : ∀ pk first second, world.Locks first pk → world.Locks second pk →
    first = second
  sent : ∀ run post, (run, post) ∈ world.posts →
    ∃ phase, world.runs[run]? = some phase ∧ phase.sent = true

theorem sent_of_step {world next : World} {action : Action}
    (stepped : outbox.step world action = some next) {run : Nat} {phase : RunPhase}
    (was : world.runs[run]? = some phase) (sent : phase.sent = true) :
    ∃ later, next.runs[run]? = some later ∧ later.sent = true := by
  have within := (List.getElem?_eq_some_iff.mp was).1
  have stays := Nat.lt_of_lt_of_le within (length_runs_step stepped)
  refine ⟨_, List.getElem?_eq_getElem stays, ?_⟩
  rcases step_phase_origin stepped (List.getElem?_eq_getElem stays) with
    same | ended | ⟨new, _⟩ | ⟨_, before, _⟩ | ⟨_, _, _, _, shape⟩
  · rw [was] at same
    cases same
    exact sent
  · rw [ended]
    rfl
  · omega
  · rw [was] at before
    cases before
    cases sent
  · rw [shape]
    rfl

theorem step_lockInvariant {world next : World} {action : Action}
    (invariant : LockInvariant world)
    (stepped : outbox.step world action = some next) : LockInvariant next := by
  constructor
  · intro pk first second firstLocks secondLocks
    rcases locks_of_step stepped firstLocks with firstOld | ⟨firstNew, unlocked⟩ <;>
      rcases locks_of_step stepped secondLocks with secondOld | ⟨secondNew, unlockedToo⟩
    · exact invariant.exclusive pk first second firstOld secondOld
    · rw [World.isLocked_of_locks firstOld] at unlockedToo
      cases unlockedToo
    · rw [World.isLocked_of_locks secondOld] at unlocked
      cases unlocked
    · rw [firstNew, secondNew]
  · intro run post member
    rcases posts_of_step stepped member with old | ⟨_, done⟩
    · obtain ⟨phase, was, sent⟩ := invariant.sent run post old
      exact sent_of_step stepped was sent
    · exact done

end Doorito.Common
