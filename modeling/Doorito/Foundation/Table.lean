import Mathlib.Data.List.Nodup
import Mathlib.Data.List.Sort

/-! Tables whose rows carry a unique primary key. A table is the list of its
rows in storage order; uniqueness of the key is a field, so no operation can
produce a table that a primary key constraint would reject. -/

set_option autoImplicit false

namespace Doorito.Foundation

/-- Rows in storage order, no two of them with the same key. -/
structure Table {Key Row : Type} (key : Row → Key) where
  rows : List Row
  unique : (rows.map key).Nodup

/-- The order in which a query returns the rows that it selects. -/
structure RowOrder (Row : Type) where
  arrange : List Row → List Row
  perm : ∀ rows, (arrange rows).Perm rows

def RowOrder.stored {Row : Type} : RowOrder Row := ⟨id, fun rows => .refl rows⟩

/-- Sorted by a comparison; rows that compare equal stay in storage order. -/
def RowOrder.sortedBy {Row : Type} (le : Row → Row → Prop) [DecidableRel le] :
    RowOrder Row :=
  ⟨fun rows => rows.insertionSort le, fun rows => List.perm_insertionSort le rows⟩

namespace Table

variable {Key Row : Type} {key : Row → Key}

@[ext] theorem ext {left right : Table key} (same : left.rows = right.rows) :
    left = right := by
  cases left
  cases right
  cases same
  rfl

def empty : Table key := ⟨[], List.nodup_nil⟩

def keys (table : Table key) : List Key := table.rows.map key

def get? [DecidableEq Key] (table : Table key) (wanted : Key) : Option Row :=
  table.rows.find? fun row => key row = wanted

def append (table : Table key) (row : Row) (fresh : key row ∉ table.keys) : Table key :=
  ⟨table.rows ++ [row], by
    rw [List.map_append, List.nodup_append]
    refine ⟨table.unique, by simp, ?_⟩
    intro stored member other single equal
    have isNew : other = key row := by simpa using single
    exact fresh (by rw [keys, ← isNew, ← equal]; exact member)⟩

def insert? [DecidableEq Key] (table : Table key) (row : Row) : Option (Table key) :=
  if fresh : key row ∉ table.keys then some (table.append row fresh) else none

/-- Rewrite the rows that satisfy a condition; the key must not be rewritten. -/
def updateWhere (table : Table key) (condition : Row → Bool) (change : Row → Row)
    (keeps : ∀ row, key (change row) = key row) : Table key :=
  ⟨table.rows.map fun row => if condition row then change row else row, by
    have same : (table.rows.map fun row =>
        if condition row then change row else row).map key = table.rows.map key := by
      rw [List.map_map]
      refine List.map_congr_left fun row _ => ?_
      by_cases holds : condition row <;> simp [holds, keeps]
    rw [same]
    exact table.unique⟩

def deleteWhere (table : Table key) (condition : Row → Bool) : Table key :=
  ⟨table.rows.filter fun row => !condition row,
    table.unique.sublist (List.filter_sublist.map key)⟩

def count (table : Table key) (condition : Row → Bool) : Nat :=
  table.rows.countP condition

@[simp] theorem rows_append (table : Table key) (row : Row)
    (fresh : key row ∉ table.keys) : (table.append row fresh).rows = table.rows ++ [row] := rfl

@[simp] theorem keys_append (table : Table key) (row : Row)
    (fresh : key row ∉ table.keys) : (table.append row fresh).keys = table.keys ++ [key row] := by
  simp [keys]

@[simp] theorem rows_updateWhere (table : Table key) (condition : Row → Bool)
    (change : Row → Row) (keeps : ∀ row, key (change row) = key row) :
    (table.updateWhere condition change keeps).rows =
      table.rows.map fun row => if condition row then change row else row := rfl

@[simp] theorem rows_deleteWhere (table : Table key) (condition : Row → Bool) :
    (table.deleteWhere condition).rows =
      table.rows.filter fun row => !condition row := rfl

theorem mem_keys {table : Table key} {wanted : Key} :
    wanted ∈ table.keys ↔ ∃ row ∈ table.rows, key row = wanted := by
  simp [keys]

theorem mem_keys_of_mem {table : Table key} {row : Row} (member : row ∈ table.rows) :
    key row ∈ table.keys :=
  mem_keys.mpr ⟨row, member, rfl⟩

theorem eq_of_key_eq {table : Table key} {left right : Row}
    (leftMember : left ∈ table.rows) (rightMember : right ∈ table.rows)
    (same : key left = key right) : left = right :=
  List.inj_on_of_nodup_map table.unique leftMember rightMember same

theorem mem_updateWhere {table : Table key} {condition : Row → Bool}
    {change : Row → Row} {keeps : ∀ row, key (change row) = key row} {row : Row} :
    row ∈ (table.updateWhere condition change keeps).rows ↔
      ∃ stored ∈ table.rows, (if condition stored then change stored else stored) = row := by
  simp [rows_updateWhere]

theorem mem_deleteWhere {table : Table key} {condition : Row → Bool} {row : Row} :
    row ∈ (table.deleteWhere condition).rows ↔
      row ∈ table.rows ∧ condition row = false := by
  simp [rows_deleteWhere]

@[simp] theorem keys_updateWhere (table : Table key) (condition : Row → Bool)
    (change : Row → Row) (keeps : ∀ row, key (change row) = key row) :
    (table.updateWhere condition change keeps).keys = table.keys := by
  rw [keys, keys, rows_updateWhere, List.map_map]
  refine List.map_congr_left fun row _ => ?_
  by_cases holds : condition row <;> simp [holds, keeps]

theorem keys_deleteWhere_subset (table : Table key) (condition : Row → Bool) :
    (table.deleteWhere condition).keys ⊆ table.keys := by
  intro wanted member
  obtain ⟨row, rowMember, rfl⟩ := mem_keys.mp member
  exact mem_keys_of_mem (mem_deleteWhere.mp rowMember).1

section Lookup

variable [DecidableEq Key]

theorem get?_eq_some_iff {table : Table key} {wanted : Key} {row : Row} :
    table.get? wanted = some row ↔ row ∈ table.rows ∧ key row = wanted := by
  constructor
  · intro found
    exact ⟨List.mem_of_find?_eq_some found, by simpa using List.find?_some found⟩
  · intro stored
    obtain ⟨member, rfl⟩ := stored
    cases found : table.get? (key row) with
    | none =>
        have absent := List.find?_eq_none.mp found row member
        simp at absent
    | some other =>
        have otherKey : key other = key row := by simpa using List.find?_some found
        have otherMember : other ∈ table.rows := List.mem_of_find?_eq_some found
        rw [eq_of_key_eq otherMember member otherKey]

theorem get?_eq_none_iff {table : Table key} {wanted : Key} :
    table.get? wanted = none ↔ wanted ∉ table.keys := by
  simp [get?, keys, List.find?_eq_none]

theorem get?_of_mem {table : Table key} {row : Row} (member : row ∈ table.rows) :
    table.get? (key row) = some row :=
  get?_eq_some_iff.mpr ⟨member, rfl⟩

theorem insert?_eq_some_iff {table grown : Table key} {row : Row} :
    table.insert? row = some grown ↔
      key row ∉ table.keys ∧ grown.rows = table.rows ++ [row] := by
  unfold insert?
  constructor
  · intro inserted
    split at inserted
    · next fresh =>
      cases inserted
      exact ⟨fresh, rfl⟩
    · cases inserted
  · intro appended
    obtain ⟨fresh, shape⟩ := appended
    rw [dif_pos fresh]
    exact congrArg some (ext shape.symm)

theorem get?_of_rows_eq_map {table mapped : Table key} {change : Row → Row}
    (rows : mapped.rows = table.rows.map change)
    (keeps : ∀ row, key (change row) = key row) (wanted : Key) :
    mapped.get? wanted = (table.get? wanted).map change := by
  cases found : table.get? wanted with
  | none =>
      have keys : mapped.keys = table.keys := by
        rw [Table.keys, Table.keys, rows, List.map_map]
        exact List.map_congr_left fun row _ => keeps row
      rw [Option.map_none, get?_eq_none_iff, keys]
      exact get?_eq_none_iff.mp found
  | some row =>
      obtain ⟨member, rfl⟩ := get?_eq_some_iff.mp found
      rw [Option.map_some, get?_eq_some_iff, rows]
      exact ⟨List.mem_map_of_mem member, keeps row⟩

theorem get?_updateWhere (table : Table key) (condition : Row → Bool)
    (change : Row → Row) (keeps : ∀ row, key (change row) = key row) (wanted : Key) :
    (table.updateWhere condition change keeps).get? wanted =
      (table.get? wanted).map fun row => if condition row then change row else row := by
  refine get?_of_rows_eq_map (rows_updateWhere ..) (fun row => ?_) wanted
  by_cases holds : condition row <;> simp [holds, keeps]

theorem get?_of_rows_eq_append {table grown : Table key} {row : Row}
    (rows : grown.rows = table.rows ++ [row]) {wanted : Key} (different : key row ≠ wanted) :
    grown.get? wanted = table.get? wanted := by
  simp [get?, rows, List.find?_append, different]

theorem get?_deleteWhere (table : Table key) (condition : Row → Bool) (wanted : Key) :
    (table.deleteWhere condition).get? wanted =
      (table.get? wanted).filter fun row => !condition row := by
  cases found : table.get? wanted with
  | none =>
      rw [Option.filter_none, get?_eq_none_iff]
      intro kept
      exact get?_eq_none_iff.mp found (keys_deleteWhere_subset table condition kept)
  | some row =>
      obtain ⟨member, rfl⟩ := get?_eq_some_iff.mp found
      cases removed : condition row with
      | false =>
          simp only [Option.filter_some, removed, Bool.not_false, if_true]
          exact get?_of_mem (mem_deleteWhere.mpr ⟨member, removed⟩)
      | true =>
          simp only [Option.filter_some, removed, Bool.not_true, Bool.false_eq_true, if_false]
          rw [get?_eq_none_iff]
          intro kept
          obtain ⟨other, otherMember, same⟩ := mem_keys.mp kept
          obtain ⟨stored, left⟩ := mem_deleteWhere.mp otherMember
          rw [eq_of_key_eq stored member same, removed] at left
          cases left

end Lookup

end Table

end Doorito.Foundation
