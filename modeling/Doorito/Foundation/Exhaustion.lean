import Mathlib.Algebra.BigOperators.Group.List.Basic
import Mathlib.Algebra.GroupWithZero.Nat
import Mathlib.Algebra.Order.BigOperators.Group.List
import Mathlib.Algebra.Order.Group.Nat
import Mathlib.Data.List.Count
import Mathlib.Data.List.Perm.Subperm
import Mathlib.Data.Nat.Init

/-! Work that is done in rounds. Each key has a number of turns left, and a round takes a turn
at least from as many of the keys that have one as its size allows. While there are enough keys
for full rounds, the total falls by the size; after that every key falls. -/

set_option autoImplicit false

namespace Doorito.Foundation

variable {Key : Type}

/-- One round: no key gains a turn, and those that are served lose one. -/
structure Round (size : Nat) (keys : List Key) (before after : Key → Nat)
    (served : List Key) : Prop where
  distinct : served.Nodup
  chosen : ∀ key ∈ served, key ∈ keys ∧ 0 < before key
  length : served.length = min size (keys.countP fun key => 0 < before key)
  gains : ∀ key, after key ≤ before key
  loses : ∀ key ∈ served, after key < before key

/-- A number of rounds one after the other. -/
inductive Rounds (size : Nat) (keys : List Key) : (Key → Nat) → Nat → (Key → Nat) → Prop where
  | none {left : Key → Nat} : Rounds size keys left 0 left
  | one {before middle after : Key → Nat} {served : List Key} {count : Nat}
      (round : Round size keys before middle served)
      (later : Rounds size keys middle count after) :
      Rounds size keys before (count + 1) after

section Round

variable {size : Nat} {keys served : List Key} {before after : Key → Nat}

/-- What is served is taken from the total. -/
theorem Round.sum_le (round : Round size keys before after served) :
    (keys.map after).sum + served.length ≤ (keys.map before).sum := by
  obtain ⟨listed, perm, sublist⟩ : served.Subperm keys :=
    List.subperm_of_subset round.distinct fun key member => (round.chosen key member).1
  obtain ⟨rest, appended⟩ := sublist.exists_perm_append
  have split : keys.Perm (served ++ rest) := appended.trans (perm.append_right rest)
  have servedLe : (served.map after).sum + served.length ≤ (served.map before).sum := by
    have each : ∀ part : List Key, part ⊆ served →
        (part.map after).sum + part.length ≤ (part.map before).sum := by
      intro part
      induction part with
      | nil => exact fun _ => Nat.le_refl _
      | cons key others ih =>
          intro subset
          obtain ⟨member, later⟩ := List.cons_subset.mp subset
          have less := round.loses key member
          have rest := ih later
          simp only [List.map_cons, List.sum_cons, List.length_cons]
          omega
    exact each served (List.Subset.refl _)
  have restLe : (rest.map after).sum ≤ (rest.map before).sum :=
    List.sum_le_sum fun key _ => round.gains key
  rw [(split.map after).sum_eq, (split.map before).sum_eq, List.map_append, List.map_append,
    List.sum_append, List.sum_append]
  omega

end Round

variable {size count most : Nat} {keys : List Key} {before after : Key → Nat}

theorem Rounds.gains (rounds : Rounds size keys before count after) (key : Key) :
    after key ≤ before key := by
  induction rounds with
  | none => exact Nat.le_refl _
  | one round _ ih => exact ih.trans (round.gains key)

end Doorito.Foundation
