import Doorito.Foundation.Tiling
import Mathlib.Algebra.BigOperators.Group.List.Basic

/-! A range that is cut into segments of one width, the last of which may be shorter. Any of
the segments lie apart, and all of them tile the range. -/

set_option autoImplicit false

namespace Doorito.Foundation

/-- The segment with a number, counted from one. -/
def cut (width total number : ℕ) : Segment :=
  ⟨(number - 1) * width, min width (total - (number - 1) * width)⟩

section Cut

variable {width total : ℕ}

theorem cut_within (number : ℕ) : (cut width total number).Within total := by
  simp only [Segment.Within, cut]
  omega

theorem cut_apart {left right : ℕ} (leftPositive : 1 ≤ left) (rightPositive : 1 ≤ right)
    (different : left ≠ right) : (cut width total left).Apart (cut width total right) := by
  rcases Nat.lt_or_gt_of_ne different with before | after
  · have later : (left - 1) * width + width ≤ (right - 1) * width := by
      rw [← Nat.succ_mul]
      exact Nat.mul_le_mul_right _ (by omega)
    simp only [Segment.Apart, cut]
    omega
  · have earlier : (right - 1) * width + width ≤ (left - 1) * width := by
      rw [← Nat.succ_mul]
      exact Nat.mul_le_mul_right _ (by omega)
    simp only [Segment.Apart, cut]
    omega

variable {numbers : List ℕ} (distinct : numbers.Nodup) (positive : ∀ number ∈ numbers, 1 ≤ number)

include distinct positive in
theorem cuts_apart : (numbers.map (cut width total)).Pairwise Segment.Apart := by
  rw [List.pairwise_map]
  exact distinct.imp_of_mem fun left right different =>
    cut_apart (positive _ left) (positive _ right) different

include distinct positive in
/-- Any of the segments have no more positions than the range. -/
theorem sum_cuts_le : ((numbers.map (cut width total)).map Segment.size).sum ≤ total := by
  have inside : occupied (numbers.map (cut width total)) ⊆ Finset.range total := by
    intro position member
    obtain ⟨segment, listed, holds⟩ := mem_occupied.mp member
    obtain ⟨number, _, rfl⟩ := List.mem_map.mp listed
    exact Segment.within_iff.mp (cut_within number) holds
  rw [← card_occupied (cuts_apart distinct positive)]
  calc (occupied (numbers.map (cut width total))).card
      ≤ (Finset.range total).card := Finset.card_le_card inside
    _ = total := Finset.card_range total

theorem sum_first_cuts (count : ℕ) :
    (((List.range' 1 count).map (cut width total)).map Segment.size).sum =
      min (count * width) total := by
  induction count with
  | zero => simp
  | succ count ih =>
      rw [List.range'_1_concat, List.map_append, List.map_append, List.sum_append, ih,
        Nat.succ_mul, Nat.add_comm 1 count]
      simp only [List.map_cons, List.map_nil, List.sum_singleton, cut, Nat.add_sub_cancel]
      omega

/-- All of the segments, in any order, tile the range. -/
theorem tiles_cuts {count : ℕ} (enough : total ≤ count * width)
    (all : numbers.Perm (List.range' 1 count)) : Tiles (numbers.map (cut width total)) total := by
  have distinct : numbers.Nodup := all.nodup_iff.mpr List.nodup_range'
  have positive : ∀ number ∈ numbers, 1 ≤ number :=
    fun number member => (List.mem_range'_1.mp (all.subset member)).1
  refine tiles_iff.mpr ⟨cuts_apart distinct positive, ?_, ?_⟩
  · intro segment listed
    obtain ⟨number, _, rfl⟩ := List.mem_map.mp listed
    exact cut_within number
  · rw [((all.map _).map _).sum_eq, sum_first_cuts, Nat.min_eq_right enough]

end Cut

end Doorito.Foundation
