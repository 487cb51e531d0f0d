import Doorito.Foundation.Selection
import Mathlib.Algebra.Order.Floor.Div
import Mathlib.Data.List.Flatten

/-! Waiting items that are taken in batches of bounded size, each as large as it can be.
Nothing is taken twice, and so many batches as the size goes into the number of items, rounded
up, take them all. -/

set_option autoImplicit false

namespace Doorito.Foundation

variable {Item : Type} [DecidableEq Item]

/-- Each batch takes as many of the items that still wait as its size allows. -/
inductive Drains (size : Nat) : List Item → List (List Item) → Prop where
  | nil {waiting : List Item} : Drains size waiting []
  | cons {waiting batch : List Item} {rest : List (List Item)} (distinct : batch.Nodup)
      (subset : batch ⊆ waiting) (length : batch.length = min size waiting.length)
      (later : Drains size (waiting.filter (· ∉ batch)) rest) :
      Drains size waiting (batch :: rest)

namespace Drains

variable {size : Nat} {waiting : List Item} {batches earlier later : List (List Item)}

theorem subset (drains : Drains size waiting batches) : batches.flatten ⊆ waiting := by
  induction drains with
  | nil => exact List.nil_subset _
  | cons _ taken _ _ ih =>
      rw [List.flatten_cons, List.append_subset]
      exact ⟨taken, fun item member => List.mem_of_mem_filter (ih member)⟩

theorem nodup (drains : Drains size waiting batches) : batches.flatten.Nodup := by
  induction drains with
  | nil => exact List.nodup_nil
  | cons distinct _ _ rest ih =>
      rw [List.flatten_cons, List.nodup_append]
      refine ⟨distinct, ih, ?_⟩
      intro item taken other member same
      have left := List.of_mem_filter (rest.subset member)
      exact of_decide_eq_true left (same ▸ taken)

theorem of_append_left (drains : Drains size waiting (earlier ++ later)) :
    Drains size waiting earlier := by
  induction earlier generalizing waiting with
  | nil => exact .nil
  | cons batch rest ih =>
      cases drains with
      | cons distinct subset length later => exact .cons distinct subset length (ih later)

theorem of_append_right (drains : Drains size waiting (earlier ++ later)) :
    Drains size (waiting.filter (· ∉ earlier.flatten)) later := by
  induction earlier generalizing waiting with
  | nil => simpa using drains
  | cons batch rest ih =>
      cases drains with
      | cons distinct subset length later =>
          have left := ih later
          rw [List.filter_filter] at left
          convert left using 2
          funext item
          simp [not_or, Bool.and_comm]

/-- A batch takes as many as the batches before it have left. -/
theorem length_eq {batch : List Item} (drains : Drains size waiting (earlier ++ batch :: later)) :
    batch.length = min size (waiting.filter (· ∉ earlier.flatten)).length := by
  cases drains.of_append_right with
  | cons _ _ length _ => exact length

theorem length_left {taken : List Item} (waitingDistinct : waiting.Nodup)
    (distinct : taken.Nodup) (subset : taken ⊆ waiting) :
    (waiting.filter (· ∉ taken)).length + taken.length = waiting.length := by
  have split : waiting.length = (waiting.filter (· ∈ taken)).length +
      (waiting.filter fun item => !decide (item ∈ taken)).length :=
    List.length_eq_length_filter_add _
  rw [(filter_mem_perm waitingDistinct distinct subset).length_eq] at split
  simpa [Nat.add_comm] using split.symm

theorem length_flatten (distinct : waiting.Nodup) (drains : Drains size waiting batches) :
    batches.flatten.length = min (batches.length * size) waiting.length := by
  induction drains with
  | nil => simp
  | @cons waiting batch rest batchDistinct subset length _ ih =>
      have left := length_left distinct batchDistinct subset
      rw [List.flatten_cons, List.length_append, ih (distinct.filter _), List.length_cons,
        Nat.add_mul, Nat.one_mul]
      omega

/-- Enough batches take every item once. -/
theorem perm (distinct : waiting.Nodup) (drains : Drains size waiting batches)
    (enough : waiting.length ≤ batches.length * size) : batches.flatten.Perm waiting := by
  refine (List.subperm_of_subset drains.nodup drains.subset).perm_of_length_le ?_
  rw [drains.length_flatten distinct, Nat.min_eq_right enough]

/-- Nothing is left for the batches after these. -/
theorem eq_nil_of_enough (distinct : waiting.Nodup)
    (drains : Drains size waiting (earlier ++ later))
    (enough : waiting.length ≤ earlier.length * size) {batch : List Item}
    (member : batch ∈ later) : batch = [] := by
  have all := drains.of_append_left.perm distinct enough
  have none : waiting.filter (· ∉ earlier.flatten) = [] := by
    rw [List.filter_eq_nil_iff]
    intro item waits
    simpa using List.mem_flatten.mp (all.symm.subset waits)
  refine List.eq_nil_of_subset_nil ?_
  rw [← none]
  exact fun item taken =>
    drains.of_append_right.subset (List.mem_flatten.mpr ⟨batch, member, taken⟩)

end Drains

end Doorito.Foundation
