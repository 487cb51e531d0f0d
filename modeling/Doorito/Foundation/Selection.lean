import Doorito.Foundation.Table

/-! A bounded choice of the lowest keys, and what the deletion of a choice of rows leaves to
count. -/

set_option autoImplicit false

namespace Doorito.Foundation

/-- So many of the given keys as the bound allows, none of them above a key that is left. -/
structure LowestOf {Key : Type} (le : Key → Key → Prop) (bound : Nat) (given chosen : List Key) :
    Prop where
  distinct : chosen.Nodup
  subset : chosen ⊆ given
  length : chosen.length = min bound given.length
  lowest : ∀ low ∈ chosen, ∀ other ∈ given, other ∉ chosen → le low other

section Choice

variable {Key : Type} {le : Key → Key → Prop} [DecidableRel le] [Std.Total le] [IsTrans Key le]

theorem lowestOf_take_insertionSort (bound : Nat) {given : List Key} (distinct : given.Nodup) :
    LowestOf le bound given ((given.insertionSort le).take bound) := by
  have sorted := List.pairwise_insertionSort le given
  have perm := List.perm_insertionSort le given
  refine ⟨(perm.nodup_iff.mpr distinct).sublist (List.take_sublist _ _),
    fun key member => perm.subset (List.mem_of_mem_take member), ?_, ?_⟩
  · rw [List.length_take, perm.length_eq]
  · intro low chosen other member absent
    rw [← List.take_append_drop bound (given.insertionSort le), List.pairwise_append] at sorted
    have listed : other ∈ (given.insertionSort le).take bound ++
        (given.insertionSort le).drop bound := by
      rw [List.take_append_drop]
      exact perm.symm.subset member
    exact sorted.2.2 low chosen other ((List.mem_append.mp listed).resolve_left absent)

variable (le) in
/-- Without the first of the sorted keys the others stay sorted. -/
theorem insertionSort_filter_not_mem_take [DecidableEq Key] [Std.Antisymm le] (bound : Nat)
    {given : List Key} (distinct : given.Nodup) :
    (given.filter (· ∉ (given.insertionSort le).take bound)).insertionSort le =
      (given.insertionSort le).drop bound := by
  have perm := List.perm_insertionSort le given
  have split := List.take_append_drop bound (given.insertionSort le)
  have apart : List.Disjoint ((given.insertionSort le).take bound)
      ((given.insertionSort le).drop bound) :=
    (List.nodup_append'.mp (split.symm ▸ perm.nodup_iff.mpr distinct)).2.2
  have kept : (given.insertionSort le).filter (· ∉ (given.insertionSort le).take bound) =
      (given.insertionSort le).drop bound := by
    rw [← split, List.filter_append, split]
    have none : ((given.insertionSort le).take bound).filter
        (· ∉ (given.insertionSort le).take bound) = [] := by
      rw [List.filter_eq_nil_iff]
      simp
    have all : ((given.insertionSort le).drop bound).filter
        (· ∉ (given.insertionSort le).take bound) = (given.insertionSort le).drop bound := by
      rw [List.filter_eq_self]
      intro key member
      exact decide_eq_true fun taken => apart taken member
    rw [none, all, List.nil_append]
  refine List.Perm.eq_of_pairwise' (r := le) (List.pairwise_insertionSort le _)
    ((List.pairwise_insertionSort le given).sublist (List.drop_sublist _ _)) ?_
  rw [← kept]
  exact (List.perm_insertionSort le _).trans (perm.symm.filter _)

end Choice

/-- What is chosen of distinct items is what is kept of them. -/
theorem filter_mem_perm {Item : Type} [DecidableEq Item] {given chosen : List Item}
    (givenDistinct : given.Nodup) (chosenDistinct : chosen.Nodup) (subset : chosen ⊆ given) :
    (given.filter (· ∈ chosen)).Perm chosen := by
  rw [List.perm_ext_iff_of_nodup (givenDistinct.filter _) chosenDistinct]
  intro item
  simp only [List.mem_filter, decide_eq_true_eq, and_iff_right_iff_imp]
  exact fun member => subset member

/-- Of distinct items, those before the first to fail the test are the wanted ones if and only
if all of them are wanted and none from there on is. -/
theorem mem_takeWhile_iff_iff {Item : Type} {items : List Item} {test : Item → Bool}
    {wanted : Item → Prop} (distinct : items.Nodup) :
    (∀ item ∈ items, item ∈ items.takeWhile test ↔ wanted item) ↔
      (∀ item ∈ items.takeWhile test, wanted item) ∧
        ∀ item ∈ items.dropWhile test, ¬ wanted item := by
  rw [← List.takeWhile_append_dropWhile (p := test) (l := items)] at distinct
  have apart := (List.nodup_append'.mp distinct).2.2
  constructor
  · intro exact
    refine ⟨?_, ?_⟩
    · intro item taken
      exact (exact item ((List.takeWhile_sublist test).subset taken)).mp taken
    · intro item dropped want
      have taken := (exact item ((List.dropWhile_sublist test).subset dropped)).mpr want
      exact apart taken dropped
  · intro split item member
    refine ⟨split.1 item, ?_⟩
    intro want
    rw [← List.takeWhile_append_dropWhile (p := test) (l := items), List.mem_append] at member
    exact member.resolve_right fun dropped => split.2 item dropped want

namespace Table

variable {Key Row : Type} {key : Row → Key}

theorem length_deleteWhere (table : Table key) (condition : Row → Bool) :
    (table.deleteWhere condition).rows.length + table.count condition = table.rows.length := by
  rw [rows_deleteWhere, count, List.countP_eq_length_filter, Nat.add_comm]
  exact (List.length_eq_length_filter_add condition).symm

theorem count_deleteWhere (table : Table key) (condition counted : Row → Bool) :
    (table.deleteWhere condition).count counted +
        table.count (fun row => counted row && condition row) = table.count counted := by
  rw [count, count, count, rows_deleteWhere, List.countP_filter]
  induction table.rows with
  | nil => rfl
  | cons row rest ih =>
      simp only [List.countP_cons]
      cases counted row <;> cases condition row <;> simp <;> omega

/-- Each of the given keys belongs to one row. -/
theorem count_mem_keys [DecidableEq Key] {table : Table key} {wanted : List Key}
    (distinct : wanted.Nodup) (subset : wanted ⊆ table.keys) :
    table.count (fun row => decide (key row ∈ wanted)) = wanted.length := by
  have perm := filter_mem_perm table.unique distinct subset
  rw [count, ← perm.length_eq, List.filter_map, List.length_map, List.countP_eq_length_filter]
  rfl

end Table

end Doorito.Foundation
