import Mathlib.Algebra.Order.Group.Nat
import Mathlib.Data.Nat.Init
import Mathlib.Logic.Function.Iterate
import Mathlib.Order.MinMax
import Mathlib.Tactic.SplitIfs

/-! Waiting items that are taken in blocks, where an item can be stuck. A block that holds a
stuck item is not taken, and nothing behind it ever is. -/

set_option autoImplicit false

namespace Doorito.Foundation

section Blocks

variable {Item : Type} {size : Nat} {stuck : Item → Bool} {waiting : List Item}

/-- Take the first block, unless one of its items is stuck. -/
def takeBlock (size : Nat) (stuck : Item → Bool) (waiting : List Item) : List Item :=
  if (waiting.take size).any stuck then waiting else waiting.drop size

/-- The number of items before the first that is stuck. -/
def clearLength (stuck : Item → Bool) (waiting : List Item) : Nat :=
  (waiting.takeWhile fun item => !stuck item).length

/-- How many blocks are taken in so many tries. -/
def blocksTaken (size : Nat) (stuck : Item → Bool) (waiting : List Item) (tries : Nat) : Nat :=
  if waiting.any stuck then min tries (clearLength stuck waiting / size) else tries

/-- How many blocks so many tries come to: those that are taken and the one that is not. -/
def blocksTried (size : Nat) (stuck : Item → Bool) (waiting : List Item) (tries : Nat) : Nat :=
  if waiting.any stuck then min tries (clearLength stuck waiting / size + 1) else tries

theorem any_take_eq_false_iff :
    (waiting.take size).any stuck = false ↔
      size ≤ clearLength stuck waiting ∨ waiting.any stuck = false := by
  induction waiting generalizing size with
  | nil => simp
  | cons item rest ih =>
      cases size with
      | zero => simp
      | succ size =>
          cases held : stuck item <;> simp [clearLength, held, ih]

/-- Behind a block without a stuck item, the first stuck item is so much nearer. -/
theorem clearLength_drop (clear : size ≤ clearLength stuck waiting) :
    clearLength stuck (waiting.drop size) + size = clearLength stuck waiting := by
  induction waiting generalizing size with
  | nil => simpa [clearLength] using clear
  | cons item rest ih =>
      cases size with
      | zero => rfl
      | succ size =>
          cases held : stuck item with
          | true => simp [clearLength, held] at clear
          | false =>
              have fewer : size ≤ clearLength stuck rest := by
                simpa [clearLength, held] using clear
              have nearer := ih fewer
              simp only [clearLength, List.drop_succ_cons, List.takeWhile_cons, held,
                Bool.not_false, if_true, List.length_cons] at nearer ⊢
              omega

theorem any_drop (free : (waiting.take size).any stuck = false) :
    (waiting.drop size).any stuck = waiting.any stuck := by
  conv_rhs => rw [← List.take_append_drop size waiting]
  rw [List.any_append, free, Bool.false_or]

/-- The blocks are taken one by one up to the first that holds a stuck item, and this one
stays for ever with all that is behind it. -/
theorem iterate_takeBlock (positive : 0 < size) (tries : Nat) :
    (takeBlock size stuck)^[tries] waiting =
      waiting.drop (size * blocksTaken size stuck waiting tries) := by
  induction tries generalizing waiting with
  | zero => simp [blocksTaken]
  | succ tries ih =>
      rw [Function.iterate_succ_apply]
      cases blocked : (waiting.take size).any stuck with
      | true =>
          have near := mt any_take_eq_false_iff.mpr (by rw [blocked]; exact Bool.noConfusion)
          rw [not_or, not_le, Bool.not_eq_false] at near
          have none (count : Nat) : blocksTaken size stuck waiting count = 0 := by
            rw [blocksTaken, if_pos near.2, Nat.div_eq_of_lt near.1, Nat.min_zero]
          rw [takeBlock, if_pos blocked, ih, none, none]
      | false =>
          have more : blocksTaken size stuck waiting (tries + 1) =
              blocksTaken size stuck (waiting.drop size) tries + 1 := by
            unfold blocksTaken
            rw [any_drop blocked]
            rcases any_take_eq_false_iff.mp blocked with clear | free
            · rw [← clearLength_drop clear, Nat.add_div_right _ positive]
              split_ifs
              · exact Nat.add_min_add_right ..
              · rfl
            · rw [free, if_neg Bool.noConfusion, if_neg Bool.noConfusion]
          rw [takeBlock, if_neg (by rw [blocked]; exact Bool.noConfusion), ih, List.drop_drop,
            more, Nat.mul_succ, Nat.add_comm]

/-- The next block is stuck once all blocks before the first stuck item are taken. -/
theorem any_take_iterate_iff (positive : 0 < size) (tries : Nat) :
    (((takeBlock size stuck)^[tries] waiting).take size).any stuck = true ↔
      waiting.any stuck = true ∧ clearLength stuck waiting / size ≤ tries := by
  induction tries generalizing waiting with
  | zero =>
      rw [Function.iterate_zero, id, ← Bool.not_eq_false, any_take_eq_false_iff, not_or, not_le,
        Bool.not_eq_false, Nat.le_zero, Nat.div_eq_zero_iff_lt positive, And.comm]
  | succ tries ih =>
      rw [Function.iterate_succ_apply, ih]
      cases blocked : (waiting.take size).any stuck with
      | true =>
          have near := mt any_take_eq_false_iff.mpr (by rw [blocked]; exact Bool.noConfusion)
          rw [not_or, not_le, Bool.not_eq_false] at near
          rw [takeBlock, if_pos blocked, Nat.div_eq_of_lt near.1]
          simp
      | false =>
          rw [takeBlock, if_neg (by rw [blocked]; exact Bool.noConfusion), any_drop blocked]
          refine and_congr_right fun held => ?_
          rcases any_take_eq_false_iff.mp blocked with clear | free
          · rw [← clearLength_drop clear, Nat.add_div_right _ positive, Nat.succ_le_succ_iff]
          · rw [held] at free
            cases free

/-- One more try takes one more block, or the next block is stuck. -/
theorem blocksTaken_succ (positive : 0 < size) (tries : Nat) :
    blocksTaken size stuck waiting (tries + 1) = blocksTaken size stuck waiting tries +
      if (((takeBlock size stuck)^[tries] waiting).take size).any stuck then 0 else 1 := by
  unfold blocksTaken
  cases held : waiting.any stuck with
  | true =>
      simp only [any_take_iterate_iff positive, held, true_and, if_true]
      split_ifs <;> omega
  | false => simp [any_take_iterate_iff positive, held]

/-- The last try comes to the block behind those that are taken before it. -/
theorem blocksTried_succ (tries : Nat) :
    blocksTried size stuck waiting (tries + 1) = blocksTaken size stuck waiting tries + 1 := by
  unfold blocksTried blocksTaken
  split_ifs
  · exact Nat.add_min_add_right ..
  · rfl

theorem blocksTried_le_succ (tries : Nat) :
    blocksTried size stuck waiting tries ≤ blocksTried size stuck waiting (tries + 1) := by
  unfold blocksTried
  split_ifs
  · exact min_le_min_right _ (Nat.le_succ tries)
  · exact Nat.le_succ tries

end Blocks

end Doorito.Foundation
