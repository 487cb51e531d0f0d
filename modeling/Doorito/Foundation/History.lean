import Doorito.Foundation.Machine
import Mathlib.Data.List.Induction

/-! The past of a run: which steps it has taken, and in which states. What is proved of a
run by looking back is an induction in which the past only grows. -/

set_option autoImplicit false

namespace Doorito.Foundation.Machine

variable {State Action : Type} {machine : Machine State Action}

/-- One of the actions is this one, and it is taken in this state. -/
def Takes (machine : Machine State Action) (start : State) (actions : List Action)
    (state : State) (action : Action) : Prop :=
  ∃ before after, actions = before ++ action :: after ∧
    machine.run start before = some state

section Past

variable {start state : State} {actions : List Action} {action : Action}

theorem Takes.append (takes : machine.Takes start actions state action)
    (more : List Action) : machine.Takes start (actions ++ more) state action := by
  obtain ⟨before, after, rfl, ran⟩ := takes
  exact ⟨before, after ++ more, by simp, ran⟩

theorem takes_last (ran : machine.run start actions = some state) :
    machine.Takes start (actions ++ [action]) state action :=
  ⟨actions, [], rfl, ran⟩

theorem takes_append_singleton {last : Action}
    (takes : machine.Takes start (actions ++ [last]) state action) :
    machine.Takes start actions state action ∨
      (action = last ∧ machine.run start actions = some state) := by
  obtain ⟨before, after, split, ran⟩ := takes
  induction after using List.reverseRecOn with
  | nil =>
      obtain ⟨rfl, same⟩ := List.append_inj' split rfl
      cases same
      exact .inr ⟨rfl, ran⟩
  | append_singleton after other =>
      rw [← List.cons_append, ← List.append_assoc] at split
      obtain ⟨rfl, _⟩ := List.append_inj' split rfl
      exact .inl ⟨before, after, rfl, ran⟩

theorem run_snoc_eq_some_iff {final : State} :
    machine.run start (actions ++ [action]) = some final ↔
      ∃ middle, machine.run start actions = some middle ∧
        machine.step middle action = some final := by
  rw [run_append_eq_some_iff]
  simp [run_cons]

/-- What holds at the beginning and is carried on by each step, with the past in sight, holds
at the end of every run. -/
theorem run_induction (holds : List Action → State → Prop) (begins : holds [] start)
    (step : ∀ past action state next, machine.run start past = some state →
      machine.step state action = some next → holds past state →
        holds (past ++ [action]) next)
    {final : State} (ran : machine.run start actions = some final) : holds actions final := by
  induction actions using List.reverseRecOn generalizing final with
  | nil =>
      cases ran
      exact begins
  | append_singleton past last ih =>
      obtain ⟨middle, reached, stepped⟩ := run_snoc_eq_some_iff.mp ran
      exact step past last middle final reached stepped (ih reached)

end Past

/-- A run of steps each of which makes the measure fall has no more steps than it falls by. -/
theorem length_add_measure_le (measure : State → Nat) {falls : Action → Prop}
    (step : ∀ state action next, falls action → machine.step state action = some next →
      measure next < measure state)
    {start final : State} {actions : List Action} (all : ∀ action ∈ actions, falls action)
    (ran : machine.run start actions = some final) :
    actions.length + measure final ≤ measure start := by
  induction actions generalizing start with
  | nil =>
      cases ran
      exact Nat.le_of_eq (Nat.zero_add _)
  | cons action rest ih =>
      obtain ⟨next, stepped, ran⟩ := machine.run_cons_eq_some_iff.mp ran
      have fell := step start action next (all action List.mem_cons_self) stepped
      have later := ih (fun other member => all other (List.mem_cons_of_mem _ member)) ran
      rw [List.length_cons]
      omega

section Simulation

variable {Fine FineAction : Type} {fine : Machine Fine FineAction}
  {matched : State → Fine → Prop} {condition : State → Action → Prop}

/-- If every step that meets the condition is matched by a run of another machine, every run
is whose steps meet it. -/
theorem run_simulated_of_meets
    (step : ∀ state action next mirror, matched state mirror → condition state action →
      machine.step state action = some next →
        ∃ actions later, fine.run mirror actions = some later ∧ matched next later)
    {start final : State} {mirror : Fine} {actions : List Action} (holds : matched start mirror)
    (meets : machine.Meets condition start actions)
    (ran : machine.run start actions = some final) :
    ∃ fineActions later, fine.run mirror fineActions = some later ∧ matched final later := by
  induction actions generalizing start mirror with
  | nil =>
      cases ran
      exact ⟨[], mirror, rfl, holds⟩
  | cons action rest ih =>
      obtain ⟨next, stepped, ran⟩ := machine.run_cons_eq_some_iff.mp ran
      obtain ⟨met, later⟩ := meets next stepped
      obtain ⟨first, middle, firstRan, held⟩ := step _ _ _ _ holds met stepped
      obtain ⟨second, last, secondRan, ends⟩ := ih held later ran
      exact ⟨first ++ second, last,
        fine.run_append_eq_some_iff.mpr ⟨middle, firstRan, secondRan⟩, ends⟩

end Simulation

section Translation

variable {Whole WholeAction : Type} {whole : Machine Whole WholeAction}

/-- The actions of another machine that the steps of a run amount to. -/
def translated (machine : Machine State Action) (translate : State → Action → List WholeAction) :
    State → List Action → List WholeAction
  | _, [] => []
  | state, action :: rest =>
      translate state action ++
        (machine.step state action).elim [] fun next => translated machine translate next rest

/-- If every step amounts to what it is translated to, every run does. -/
theorem run_translated {translate : State → Action → List WholeAction} {invariant : State → Prop}
    (seen : State → Whole)
    (step : ∀ state action next, invariant state → machine.step state action = some next →
      invariant next ∧ whole.run (seen state) (translate state action) = some (seen next))
    {start final : State} {actions : List Action} (holds : invariant start)
    (ran : machine.run start actions = some final) :
    whole.run (seen start) (machine.translated translate start actions) = some (seen final) := by
  induction actions generalizing start with
  | nil =>
      cases ran
      rfl
  | cons action rest ih =>
      obtain ⟨next, stepped, ran⟩ := machine.run_cons_eq_some_iff.mp ran
      obtain ⟨kept, first⟩ := step start action next holds stepped
      rw [translated, stepped, Option.elim_some]
      exact whole.run_append_eq_some_iff.mpr ⟨seen next, first, ih kept ran⟩

end Translation

end Doorito.Foundation.Machine
