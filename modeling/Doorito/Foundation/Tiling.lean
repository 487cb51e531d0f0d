import Mathlib.Order.Interval.Finset.Nat
import Mathlib.Algebra.BigOperators.Group.Finset.Basic
import Mathlib.Algebra.Ring.Nat

/-! Segments of positions that tile an initial range. Disjoint segments inside the
range tile it as soon as their sizes add up to it, and distinct numbers from one to a
count are all of them as soon as there are enough. Both are counting arguments. -/

set_option autoImplicit false

namespace Doorito.Foundation

structure Segment where
  offset : ℕ
  size : ℕ
deriving DecidableEq, Repr

namespace Segment

def positions (segment : Segment) : Finset ℕ :=
  Finset.Ico segment.offset (segment.offset + segment.size)

@[simp] theorem card_positions (segment : Segment) :
    segment.positions.card = segment.size := by
  simp [positions]

/-- The segment ends at or before a position, unless it is empty. -/
def Within (segment : Segment) (total : ℕ) : Prop :=
  segment.size = 0 ∨ segment.offset + segment.size ≤ total

instance (segment : Segment) (total : ℕ) : Decidable (segment.Within total) :=
  inferInstanceAs (Decidable (_ ∨ _))

/-- One of the segments is empty or ends before the other begins. -/
def Apart (left right : Segment) : Prop :=
  left.size = 0 ∨ right.size = 0 ∨ left.offset + left.size ≤ right.offset ∨
    right.offset + right.size ≤ left.offset

instance (left right : Segment) : Decidable (left.Apart right) :=
  inferInstanceAs (Decidable (_ ∨ _ ∨ _ ∨ _))

theorem within_iff {segment : Segment} {total : ℕ} :
    segment.Within total ↔ segment.positions ⊆ Finset.range total := by
  rw [positions, Finset.range_eq_Ico]
  rcases Nat.eq_zero_or_pos segment.size with empty | nonempty
  · simp [Within, empty]
  · rw [Finset.Ico_subset_Ico_iff (by omega), Within]
    omega

theorem apart_iff {left right : Segment} :
    left.Apart right ↔ Disjoint left.positions right.positions := by
  rw [positions, positions, Finset.disjoint_left]
  simp only [Finset.mem_Ico, Apart]
  constructor
  · intro apart position here there
    omega
  · intro disjoint
    by_contra overlap
    -- The later of the two offsets lies in both segments.
    apply @disjoint (max left.offset right.offset) <;> omega

end Segment

def occupied : List Segment → Finset ℕ
  | [] => ∅
  | segment :: rest => segment.positions ∪ occupied rest

/-- The segments cover the first `total` positions without gap or overlap. -/
structure Tiles (segments : List Segment) (total : ℕ) : Prop where
  disjoint : segments.Pairwise fun left right => Disjoint left.positions right.positions
  covers : occupied segments = Finset.range total

theorem mem_occupied {segments : List Segment} {position : ℕ} :
    position ∈ occupied segments ↔ ∃ segment ∈ segments, position ∈ segment.positions := by
  induction segments with
  | nil => simp [occupied]
  | cons segment rest ih => simp [occupied, ih]

theorem card_occupied {segments : List Segment} (apart : segments.Pairwise Segment.Apart) :
    (occupied segments).card = (segments.map Segment.size).sum := by
  induction segments with
  | nil => rfl
  | cons segment rest ih =>
      obtain ⟨first, apartRest⟩ := List.pairwise_cons.mp apart
      have separate : Disjoint segment.positions (occupied rest) := by
        rw [Finset.disjoint_left]
        intro position here there
        obtain ⟨other, member, within⟩ := mem_occupied.mp there
        exact Finset.disjoint_left.mp (Segment.apart_iff.mp (first other member)) here within
      rw [occupied, Finset.card_union_of_disjoint separate, ih apartRest,
        Segment.card_positions, List.map_cons, List.sum_cons]

theorem tiles_iff {segments : List Segment} {total : ℕ} :
    Tiles segments total ↔
      segments.Pairwise Segment.Apart ∧ (∀ segment ∈ segments, segment.Within total) ∧
        (segments.map Segment.size).sum = total := by
  constructor
  · intro tiles
    have apart := tiles.disjoint.imp Segment.apart_iff.mpr
    refine ⟨apart, ?_, ?_⟩
    · intro segment member
      rw [Segment.within_iff, ← tiles.covers]
      intro position within
      exact mem_occupied.mpr ⟨segment, member, within⟩
    · rw [← card_occupied apart, tiles.covers, Finset.card_range]
  · intro conditions
    obtain ⟨apart, inside, sum⟩ := conditions
    refine ⟨apart.imp Segment.apart_iff.mp, ?_⟩
    apply Finset.eq_of_subset_of_card_le
    · intro position member
      obtain ⟨segment, listed, within⟩ := mem_occupied.mp member
      exact Segment.within_iff.mp (inside segment listed) within
    · rw [card_occupied apart, sum, Finset.card_range]

/-- Enough distinct numbers from one to a count are all of them. -/
theorem mem_iff_of_enough {numbers : List ℕ} {count : ℕ} (distinct : numbers.Nodup)
    (inside : ∀ number ∈ numbers, 1 ≤ number ∧ number ≤ count)
    (enough : count ≤ numbers.length) (number : ℕ) :
    number ∈ numbers ↔ 1 ≤ number ∧ number ≤ count := by
  have all : numbers.toFinset = Finset.Icc 1 count := by
    apply Finset.eq_of_subset_of_card_le
    · intro member listed
      exact Finset.mem_Icc.mpr (inside member (List.mem_toFinset.mp listed))
    · rw [List.toFinset_card_of_nodup distinct, Nat.card_Icc]
      omega
  rw [← List.mem_toFinset, all, Finset.mem_Icc]

end Doorito.Foundation
