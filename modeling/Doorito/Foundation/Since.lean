import Doorito.Foundation.History

/-! What has held since an event. A property that some steps begin, that other steps end and
that the rest leave alone holds in a state exactly if the run has taken a step that begins it
and none that ends it since. -/

set_option autoImplicit false

namespace Doorito.Foundation.Machine

variable {State Action : Type} {machine : Machine State Action}

/-- One of the actions begins it in the state in which it is taken, and none after it ends it. -/
def Since (machine : Machine State Action) (begins : State → Action → Prop)
    (ends : Action → Prop) (start : State) (actions : List Action) : Prop :=
  ∃ before action after state, actions = before ++ action :: after ∧
    machine.run start before = some state ∧ begins state action ∧ ∀ later ∈ after, ¬ ends later

section Since

variable {begins : State → Action → Prop} {ends : Action → Prop} {start state final : State}
  {actions : List Action} {last : Action}

theorem not_since_nil : ¬ machine.Since begins ends start [] := by
  intro since
  obtain ⟨before, action, after, _, split, _⟩ := since
  cases before <;> cases split

theorem since_snoc_iff (ran : machine.run start actions = some state) :
    machine.Since begins ends start (actions ++ [last]) ↔
      begins state last ∨ machine.Since begins ends start actions ∧ ¬ ends last := by
  constructor
  · intro since
    obtain ⟨before, action, after, earlier, split, reached, began, kept⟩ := since
    induction after using List.reverseRecOn with
    | nil =>
        obtain ⟨rfl, same⟩ := List.append_inj' split rfl
        cases same
        obtain rfl : state = earlier := Option.some.inj (ran.symm.trans reached)
        exact .inl began
    | append_singleton after other =>
        rw [← List.cons_append, ← List.append_assoc] at split
        obtain ⟨rfl, same⟩ := List.append_inj' split rfl
        cases same
        refine .inr ⟨⟨before, action, after, earlier, rfl, reached, began, ?_⟩, ?_⟩
        · intro later member
          exact kept later (List.mem_append_left _ member)
        · exact kept last (List.mem_append_right _ List.mem_cons_self)
  · intro either
    rcases either with began | ⟨since, continues⟩
    · exact ⟨actions, last, [], state, rfl, ran, began, List.forall_mem_nil _⟩
    · obtain ⟨before, action, after, earlier, rfl, reached, began, kept⟩ := since
      refine ⟨before, action, after ++ [last], earlier, by simp, reached, began, ?_⟩
      intro later member
      rcases List.mem_append.mp member with old | new
      · exact kept later old
      · exact List.mem_singleton.mp new ▸ continues

/-- What each step decides so holds at the end of a run exactly since it was begun. -/
theorem run_since_iff (holds : State → Prop) (nothing : ¬ holds start)
    (step : ∀ state action next, machine.step state action = some next →
      (holds next ↔ begins state action ∨ holds state ∧ ¬ ends action))
    (ran : machine.run start actions = some final) :
    holds final ↔ machine.Since begins ends start actions := by
  refine run_induction (fun past state => holds state ↔ machine.Since begins ends start past)
    (iff_of_false nothing not_since_nil) ?_ ran
  intro past action state next reached stepped ih
  rw [since_snoc_iff reached, step state action next stepped, ih]

end Since

end Doorito.Foundation.Machine
