import Doorito.Foundation.Machine
import Mathlib.Order.Defs.PartialOrder

/-! Machines with a clock. An action takes the time from its first to its last reading of
the clock, and none begins before the one before it has ended. -/

set_option autoImplicit false

namespace Doorito.Foundation

structure Clocked (State Moment : Type) where
  state : State
  clock : Moment

namespace Machine

variable {State Action Moment : Type}

/-- The machine at non-decreasing times. -/
def clocked [LE Moment] [DecidableLE Moment] (machine : Machine State Action)
    (begins ends : Action → Moment) : Machine (Clocked State Moment) Action where
  step world action :=
    if world.clock ≤ begins action ∧ begins action ≤ ends action then
      (machine.step world.state action).map fun next => ⟨next, ends action⟩
    else none

variable [Preorder Moment] [DecidableLE Moment] {machine : Machine State Action}
  {begins ends : Action → Moment} {world next final : Clocked State Moment} {action : Action}
  {actions : List Action}

theorem clocked_step_eq_some_iff :
    (machine.clocked begins ends).step world action = some next ↔
      world.clock ≤ begins action ∧ begins action ≤ ends action ∧
        machine.step world.state action = some next.state ∧ next.clock = ends action := by
  simp only [clocked]
  split_ifs with ordered
  · rw [Option.map_eq_some_iff]
    constructor
    · intro stepped
      obtain ⟨state, stepped, rfl⟩ := stepped
      exact ⟨ordered.1, ordered.2, stepped, rfl⟩
    · intro both
      obtain ⟨_, _, stepped, clock⟩ := both
      exact ⟨next.state, stepped, by rw [← clock]⟩
  · refine iff_of_false nofun ?_
    intro both
    exact ordered ⟨both.1, both.2.1⟩

theorem step_of_clocked (stepped : (machine.clocked begins ends).step world action = some next) :
    machine.step world.state action = some next.state :=
  (clocked_step_eq_some_iff.mp stepped).2.2.1

theorem clock_le_of_step (stepped : (machine.clocked begins ends).step world action = some next) :
    world.clock ≤ next.clock := by
  obtain ⟨first, last, _, clock⟩ := clocked_step_eq_some_iff.mp stepped
  rw [clock]
  exact le_trans first last

/-- Runs at non-decreasing times are runs. -/
theorem run_of_clocked (ran : (machine.clocked begins ends).run world actions = some final) :
    machine.run world.state actions = some final.state := by
  induction actions generalizing world with
  | nil =>
      cases ran
      rfl
  | cons action rest ih =>
      obtain ⟨next, stepped, ran⟩ := (run_cons_eq_some_iff _).mp ran
      exact (run_cons_eq_some_iff _).mpr ⟨next.state, step_of_clocked stepped, ih ran⟩

theorem Reachable.of_clocked {initial : State → Prop}
    (reachable : (machine.clocked begins ends).Reachable (fun world => initial world.state)
      world) : machine.Reachable initial world.state := by
  obtain ⟨start, actions, starts, ran⟩ := reachable
  exact ⟨start.state, actions, starts, run_of_clocked ran⟩

end Machine

end Doorito.Foundation
