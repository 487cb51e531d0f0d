import Mathlib.Algebra.BigOperators.Group.List.Basic
import Mathlib.Algebra.Ring.Nat

/-! Parties that take turns on a shared state. What is known of a party has to survive the
turns of the others, and what all of them have added makes up a total of the shared state. -/

set_option autoImplicit false

namespace Doorito.Foundation

theorem sum_map_set {Item : Type} (part : Item → Nat) {items : List Item} {number : Nat}
    {old : Item} (found : items[number]? = some old) (new : Item) :
    ((items.set number new).map part).sum + part old = (items.map part).sum + part new := by
  obtain ⟨within, rfl⟩ := List.getElem?_eq_some_iff.mp found
  have whole : (items.map part).sum = ((items.take number).map part).sum +
      (part items[number] + ((items.drop (number + 1)).map part).sum) := by
    rw [← List.sum_cons, ← List.map_cons, List.getElem_cons_drop, ← List.sum_append,
      ← List.map_append, List.take_append_drop]
  rw [List.set_eq_take_append_cons_drop, if_pos within, whole, List.map_append, List.sum_append,
    List.map_cons, List.sum_cons]
  omega

/-- Every party is as it is known to be, and the parts that the parties have added since the
beginning make up the total. -/
structure Contributed {Shared Party : Type} (known : Shared → Party → Prop)
    (total : Shared → Nat) (part : Party → Nat) (base : Nat) (shared : Shared)
    (parties : List Party) : Prop where
  known : ∀ party ∈ parties, known shared party
  total : total shared = base + (parties.map part).sum

namespace Contributed

variable {Shared Party : Type} {known : Shared → Party → Prop} {total : Shared → Nat}
  {part : Party → Nat} {base : Nat} {shared later : Shared} {parties : List Party}

theorem start : Contributed known total part (total shared) shared [] :=
  ⟨List.forall_mem_nil _, rfl⟩

theorem join (contributed : Contributed known total part base shared parties) {new : Party}
    (holds : known shared new) (nothing : part new = 0) :
    Contributed known total part base shared (parties ++ [new]) := by
  refine ⟨?_, ?_⟩
  · intro party member
    rcases List.mem_append.mp member with old | single
    · exact contributed.known party old
    · rw [List.mem_singleton.mp single]
      exact holds
  · rw [List.map_append, List.sum_append, List.map_singleton, List.sum_singleton, nothing,
      Nat.add_zero]
    exact contributed.total

/-- The turn of one party. -/
theorem turn (contributed : Contributed known total part base shared parties) {number : Nat}
    {old new : Party} (found : parties[number]? = some old)
    (stable : ∀ party, known shared party → known later party) (holds : known later new)
    (balance : total later + part old = total shared + part new) :
    Contributed known total part base later (parties.set number new) := by
  refine ⟨?_, ?_⟩
  · intro party member
    rcases List.mem_or_eq_of_mem_set member with other | rfl
    · exact stable party (contributed.known party other)
    · exact holds
  · have sum := sum_map_set part found new
    have before := contributed.total
    omega

end Contributed

/-! ## Keys that parties hold -/

/-- No two parties hold the same key. -/
def Exclusive {Party Key : Type} (held : Party → Option Key) (parties : List Party) : Prop :=
  ∀ (first second : Nat) (one other : Party) (key : Key), parties[first]? = some one →
    parties[second]? = some other → held one = some key → held other = some key → first = second

namespace Exclusive

variable {Party Key : Type} {held : Party → Option Key} {parties : List Party}

theorem start : Exclusive held ([] : List Party) := by
  intro first second one other key found
  cases found

theorem join (exclusive : Exclusive held parties) {new : Party} (nothing : held new = none) :
    Exclusive held (parties ++ [new]) := by
  have old : ∀ {number : Nat} {party : Party} {key : Key},
      (parties ++ [new])[number]? = some party → held party = some key →
        parties[number]? = some party := by
    intro number party key found holds
    rw [List.getElem?_append] at found
    split at found
    · exact found
    · obtain rfl := List.mem_singleton.mp (List.mem_of_getElem? found)
      rw [nothing] at holds
      cases holds
  intro first second one other key firstFound secondFound firstHolds secondHolds
  exact exclusive first second one other key (old firstFound firstHolds)
    (old secondFound secondHolds) firstHolds secondHolds

/-- The turn of one party, which takes no key that another party holds. -/
theorem turn (exclusive : Exclusive held parties) {number : Nat} {old new : Party}
    (found : parties[number]? = some old)
    (takes : ∀ key, held new = some key →
      held old = some key ∨ ∀ party ∈ parties, held party ≠ some key) :
    Exclusive held (parties.set number new) := by
  -- Whoever holds a key afterwards is the new party or held it before.
  have origin : ∀ {place : Nat} {party : Party}, (parties.set number new)[place]? = some party →
      place = number ∧ party = new ∨ place ≠ number ∧ parties[place]? = some party := by
    intro place party there
    rw [List.getElem?_set] at there
    split_ifs at there with same within
    · exact .inl ⟨same.symm, (Option.some.inj there).symm⟩
    · exact .inr ⟨Ne.symm same, there⟩
  have apart : ∀ {place : Nat} {party : Party} {key : Key}, place ≠ number →
      parties[place]? = some party → held party = some key → held new ≠ some key := by
    intro place party key other there holds same
    rcases takes key same with had | free
    · exact other (exclusive place number party old key there found holds had)
    · exact free party (List.mem_of_getElem? there) holds
  intro first second one other key firstFound secondFound firstHolds secondHolds
  rcases origin firstFound with ⟨rfl, rfl⟩ | ⟨firstOther, firstWas⟩ <;>
    rcases origin secondFound with ⟨rfl, rfl⟩ | ⟨secondOther, secondWas⟩
  · rfl
  · exact absurd firstHolds (apart secondOther secondWas secondHolds)
  · exact absurd secondHolds (apart firstOther firstWas firstHolds)
  · exact exclusive first second one other key firstWas secondWas firstHolds secondHolds

/-- A key that its party gives up is held by nobody. -/
theorem released (exclusive : Exclusive held parties) {number : Nat} {old new : Party}
    (found : parties[number]? = some old) {key : Key} (had : held old = some key)
    (nothing : held new = none) : ∀ party ∈ parties.set number new, held party ≠ some key := by
  intro party member holds
  obtain ⟨place, there⟩ := List.mem_iff_getElem?.mp member
  rw [List.getElem?_set] at there
  split_ifs at there with same within
  · cases there
    rw [nothing] at holds
    cases holds
  · exact same (exclusive place number party old key there found holds had).symm

end Exclusive

end Doorito.Foundation
