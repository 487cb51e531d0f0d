import Mathlib.Data.List.Basic

/-! Machines with guarded, executable steps. A step that is not enabled in a
state is `none`; one list of actions is one interleaving. Conditions are laid
on the steps of a run, and properties are read off every state it passes. -/

set_option autoImplicit false

namespace Doorito.Foundation

/-- A transition system whose actions carry every choice that is not fixed by
the state. -/
structure Machine (State Action : Type) where
  step : State → Action → Option State

namespace Machine

variable {State Action : Type} (machine : Machine State Action)

/-- Perform the actions in order; `none` if one of them is not enabled. -/
def run : State → List Action → Option State
  | state, [] => some state
  | state, action :: rest =>
      (machine.step state action).bind fun next => run next rest

def Reachable (initial : State → Prop) (state : State) : Prop :=
  ∃ start actions, initial start ∧ machine.run start actions = some state

/-- Every step that the actions take from here is taken under the condition. -/
def Meets (condition : State → Action → Prop) : State → List Action → Prop
  | _, [] => True
  | state, action :: rest =>
      ∀ next, machine.step state action = some next →
        condition state action ∧ Meets condition next rest

/-- Every state that the run passes has the property. -/
def Always (property : State → Prop) (start : State) (actions : List Action) : Prop :=
  ∀ before after state, actions = before ++ after →
    machine.run start before = some state → property state

/-- Any two states that the run passes one after the other are related. -/
def Along (related : State → State → Prop) (start : State)
    (actions : List Action) : Prop :=
  ∀ before between after earlier later, actions = before ++ between ++ after →
    machine.run start before = some earlier →
    machine.run earlier between = some later → related earlier later

@[simp] theorem run_nil (state : State) : machine.run state [] = some state := rfl

theorem run_cons (state : State) (action : Action) (rest : List Action) :
    machine.run state (action :: rest) =
      (machine.step state action).bind fun next => machine.run next rest := rfl

theorem run_cons_eq_some_iff {state final : State} {action : Action}
    {rest : List Action} :
    machine.run state (action :: rest) = some final ↔
      ∃ next, machine.step state action = some next ∧
        machine.run next rest = some final := by
  rw [run_cons, Option.bind_eq_some_iff]

theorem run_append (state : State) (first second : List Action) :
    machine.run state (first ++ second) =
      (machine.run state first).bind fun next => machine.run next second := by
  induction first generalizing state with
  | nil => rfl
  | cons action rest ih =>
      rw [List.cons_append, run_cons, run_cons]
      cases machine.step state action with
      | none => rfl
      | some next => exact ih next

theorem run_append_eq_some_iff {state final : State} {first second : List Action} :
    machine.run state (first ++ second) = some final ↔
      ∃ middle, machine.run state first = some middle ∧
        machine.run middle second = some final := by
  rw [run_append, Option.bind_eq_some_iff]

variable {machine}

section Invariants

variable {invariant : State → Prop} {condition : State → Action → Prop}

/-- What every step preserves under the condition, every run preserves whose
steps meet it. -/
theorem run_preserves_of_meets
    (step : ∀ state action next, invariant state → condition state action →
      machine.step state action = some next → invariant next)
    {start final : State} {actions : List Action} (holds : invariant start)
    (meets : machine.Meets condition start actions)
    (ran : machine.run start actions = some final) : invariant final := by
  induction actions generalizing start with
  | nil =>
      cases ran
      exact holds
  | cons action rest ih =>
      obtain ⟨next, stepped, ran⟩ := machine.run_cons_eq_some_iff.mp ran
      obtain ⟨met, later⟩ := meets next stepped
      exact ih (step _ _ _ holds met stepped) later ran

theorem run_preserves
    (step : ∀ state action next, invariant state →
      machine.step state action = some next → invariant next)
    {start final : State} {actions : List Action} (holds : invariant start)
    (ran : machine.run start actions = some final) : invariant final := by
  induction actions generalizing start with
  | nil =>
      cases ran
      exact holds
  | cons action rest ih =>
      obtain ⟨next, stepped, ran⟩ := machine.run_cons_eq_some_iff.mp ran
      exact ih (step _ _ _ holds stepped) ran

theorem Reachable.satisfies {initial : State → Prop}
    (start : ∀ state, initial state → invariant state)
    (step : ∀ state action next, invariant state →
      machine.step state action = some next → invariant next)
    {state : State} (reachable : machine.Reachable initial state) : invariant state := by
  obtain ⟨origin, actions, begins, ran⟩ := reachable
  exact run_preserves step (start origin begins) ran

end Invariants

theorem Meets.cons {condition : State → Action → Prop} {state next : State}
    {action : Action} {rest : List Action} (holds : condition state action)
    (stepped : machine.step state action = some next)
    (meets : machine.Meets condition next rest) :
    machine.Meets condition state (action :: rest) := by
  intro other steppedOther
  obtain rfl : next = other := Option.some.inj (stepped.symm.trans steppedOther)
  exact ⟨holds, meets⟩

theorem meets_of_forall {condition : State → Action → Prop} {start : State}
    {actions : List Action} (holds : ∀ action ∈ actions, ∀ state, condition state action) :
    machine.Meets condition start actions := by
  induction actions generalizing start with
  | nil => trivial
  | cons action rest ih =>
      intro next _
      exact ⟨holds action List.mem_cons_self start,
        ih fun other member => holds other (List.mem_cons_of_mem _ member)⟩

theorem Meets.append {condition : State → Action → Prop} {start : State}
    {first second : List Action}
    (meets : machine.Meets condition start (first ++ second)) :
    machine.Meets condition start first ∧
      ∀ middle, machine.run start first = some middle →
        machine.Meets condition middle second := by
  induction first generalizing start with
  | nil =>
      refine ⟨trivial, ?_⟩
      intro middle ran
      cases ran
      exact meets
  | cons action rest ih =>
      constructor
      · intro next stepped
        obtain ⟨met, later⟩ := meets next stepped
        exact ⟨met, (ih later).1⟩
      · intro middle ran
        obtain ⟨next, stepped, ran⟩ := machine.run_cons_eq_some_iff.mp ran
        exact (ih (meets next stepped).2).2 middle ran

/-- The condition on the steps, step by step: it holds wherever the run takes one. -/
theorem meets_iff_forall_split {condition : State → Action → Prop} {start : State}
    {actions : List Action} :
    machine.Meets condition start actions ↔
      ∀ before action after state next, actions = before ++ action :: after →
        machine.run start before = some state → machine.step state action = some next →
        condition state action := by
  constructor
  · intro meets before action after state next split ran stepped
    subst split
    exact ((meets.append.2 state ran) next stepped).1
  · intro everywhere
    induction actions generalizing start with
    | nil => trivial
    | cons action rest ih =>
        intro next stepped
        refine ⟨everywhere [] action rest start next rfl rfl stepped, ih ?_⟩
        intro before later after state final split ran
        refine everywhere (action :: before) later after state final (by simp [split]) ?_
        exact machine.run_cons_eq_some_iff.mpr ⟨next, stepped, ran⟩

/-- A condition on the steps that keeps an invariant carries every property of
steps that the two imply. -/
theorem Meets.of_invariant (invariant : State → Prop)
    {condition property : State → Action → Prop}
    (step : ∀ state action next, invariant state → condition state action →
      machine.step state action = some next → invariant next)
    (implies : ∀ state action, invariant state → condition state action →
      property state action)
    {start : State} {actions : List Action} (holds : invariant start)
    (meets : machine.Meets condition start actions) :
    machine.Meets property start actions := by
  induction actions generalizing start with
  | nil => trivial
  | cons action rest ih =>
      intro next stepped
      obtain ⟨met, later⟩ := meets next stepped
      exact ⟨implies _ _ holds met, ih (step _ _ _ holds met stepped) later⟩

section Relations

variable (invariant : State → Prop) (related : State → State → Prop)

theorem run_relates {condition : State → Action → Prop}
    (refl : ∀ state, related state state)
    (trans : ∀ {first second third}, related first second → related second third →
      related first third)
    (step : ∀ state action next, invariant state → condition state action →
      machine.step state action = some next → invariant next ∧ related state next)
    {start final : State} {actions : List Action} (holds : invariant start)
    (meets : machine.Meets condition start actions)
    (ran : machine.run start actions = some final) :
    invariant final ∧ related start final := by
  induction actions generalizing start with
  | nil =>
      cases ran
      exact ⟨holds, refl _⟩
  | cons action rest ih =>
      obtain ⟨next, stepped, ran⟩ := machine.run_cons_eq_some_iff.mp ran
      obtain ⟨met, later⟩ := meets next stepped
      obtain ⟨kept, first⟩ := step _ _ _ holds met stepped
      obtain ⟨final, rest⟩ := ih kept later ran
      exact ⟨final, trans first rest⟩

/-- Steps taken under the condition relate every earlier state of the run, which
the invariant holds of, to every later one. -/
theorem along_of_meets {condition : State → Action → Prop}
    (refl : ∀ state, related state state)
    (trans : ∀ {first second third}, related first second → related second third →
      related first third)
    (step : ∀ state action next, invariant state → condition state action →
      machine.step state action = some next → invariant next ∧ related state next)
    {start : State} {actions : List Action} (holds : invariant start)
    (meets : machine.Meets condition start actions) :
    machine.Along (fun earlier later => invariant earlier ∧ related earlier later)
      start actions := by
  intro before between after earlier later split first second
  subst split
  obtain ⟨upTo, _⟩ := meets.append
  obtain ⟨meetsBefore, meetsBetween⟩ := upTo.append
  have reached := run_relates invariant related refl trans step holds meetsBefore first
  have rest := run_relates invariant related refl trans step reached.1
    (meetsBetween earlier first) second
  exact ⟨reached.1, rest.2⟩

variable {related}

theorem Along.mono {other : State → State → Prop} {start : State}
    {actions : List Action} (along : machine.Along related start actions)
    (implies : ∀ earlier later, related earlier later → other earlier later) :
    machine.Along other start actions :=
  fun before between after earlier later split first second =>
    implies _ _ (along before between after earlier later split first second)

/-- Conversely, a relation that fails across every step taken against the
condition holds along a run only if all of its steps meet the condition. -/
theorem meets_of_along {condition : State → Action → Prop}
    (step : ∀ state action next, machine.step state action = some next →
      related state next → condition state action)
    {start : State} {actions : List Action}
    (along : machine.Along related start actions) :
    machine.Meets condition start actions := by
  induction actions generalizing start with
  | nil => trivial
  | cons action rest ih =>
      intro next stepped
      have single : machine.run start [action] = some next :=
        machine.run_cons_eq_some_iff.mpr ⟨next, stepped, rfl⟩
      refine ⟨step _ _ _ stepped (along [] [action] rest start next rfl rfl single), ih ?_⟩
      intro before between after earlier later split first second
      refine along (action :: before) between after earlier later (by simp [split]) ?_ second
      exact machine.run_cons_eq_some_iff.mpr ⟨next, stepped, first⟩

end Relations

section States

variable (invariant : State → Prop) {property : State → Prop}
  {condition : State → Action → Prop}

theorem always_of_meets (implies : ∀ state, invariant state → property state)
    (step : ∀ state action next, invariant state → condition state action →
      machine.step state action = some next → invariant next)
    {start : State} {actions : List Action} (holds : invariant start)
    (meets : machine.Meets condition start actions) :
    machine.Always property start actions := by
  intro before after state split ran
  subst split
  exact implies state (run_preserves_of_meets step holds meets.append.1 ran)

theorem meets_of_always
    (implies : ∀ state action next, invariant state →
      machine.step state action = some next → property next → condition state action)
    (step : ∀ state action next, invariant state → condition state action →
      machine.step state action = some next → invariant next)
    {start : State} {actions : List Action} (holds : invariant start)
    (always : machine.Always property start actions) :
    machine.Meets condition start actions := by
  induction actions generalizing start with
  | nil => trivial
  | cons action rest ih =>
      intro next stepped
      have single : machine.run start [action] = some next :=
        machine.run_cons_eq_some_iff.mpr ⟨next, stepped, rfl⟩
      have met : condition start action :=
        implies _ _ _ holds stepped (always [action] rest next rfl single)
      refine ⟨met, ih (step _ _ _ holds met stepped) ?_⟩
      intro before after state split reached
      refine always (action :: before) after state (by simp [split]) ?_
      exact machine.run_cons_eq_some_iff.mpr ⟨next, stepped, reached⟩

end States

section Simulation

variable {Fine FineAction : Type} {fine : Machine Fine FineAction}
  {matched : State → Fine → Prop}

/-- If every step is matched by a run of another machine, every run is. -/
theorem run_simulated
    (step : ∀ state action next mirror, matched state mirror →
      machine.step state action = some next →
        ∃ actions later, fine.run mirror actions = some later ∧ matched next later)
    {start final : State} {mirror : Fine} {actions : List Action}
    (holds : matched start mirror) (ran : machine.run start actions = some final) :
    ∃ fineActions later, fine.run mirror fineActions = some later ∧ matched final later := by
  induction actions generalizing start mirror with
  | nil =>
      cases ran
      exact ⟨[], mirror, rfl, holds⟩
  | cons action rest ih =>
      obtain ⟨next, stepped, ran⟩ := machine.run_cons_eq_some_iff.mp ran
      obtain ⟨first, middle, firstRan, held⟩ := step _ _ _ _ holds stepped
      obtain ⟨second, later, secondRan, ends⟩ := ih held ran
      exact ⟨first ++ second, later,
        (fine.run_append_eq_some_iff).mpr ⟨middle, firstRan, secondRan⟩, ends⟩

end Simulation

end Machine

end Doorito.Foundation
