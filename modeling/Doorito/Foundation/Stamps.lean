import Doorito.Foundation.Clocked
import Doorito.Foundation.Table

/-! Rows that carry the time of their last write. A write that stamps every row that it
changes keeps the stamps true, and later writes that do so keep them true. -/

set_option autoImplicit false

namespace Doorito.Foundation

namespace Table

variable {Key Row Moment : Type} {key : Row → Key}

/-- The write has stamped every row that it added or changed. -/
def StampedAt (stamp : Row → Moment) (time : Moment) (before after : Table key) : Prop :=
  ∀ row ∈ after.rows, row ∈ before.rows ∨ stamp row = time

/-- The write may have changed rows without a new stamp. -/
def KeepsStamps (stamp : Row → Moment) (time : Moment) (before after : Table key) : Prop :=
  ∀ row ∈ after.rows, (∃ old ∈ before.rows, stamp old = stamp row) ∨ stamp row = time

/-- In the later table, the rows that the write has changed are not stamped before it. -/
def DatesChanges [LE Moment] [DecidableEq Key] (stamp : Row → Moment) (time : Moment)
    (before after later : Table key) : Prop :=
  ∀ row ∈ later.rows, before.get? (key row) ≠ after.get? (key row) → time ≤ stamp row

section Writes

variable {stamp : Row → Moment} {time : Moment} {before middle after : Table key}

theorem StampedAt.refl (table : Table key) : StampedAt stamp time table table :=
  fun _ member => .inl member

theorem StampedAt.trans (first : StampedAt stamp time before middle)
    (second : StampedAt stamp time middle after) : StampedAt stamp time before after := by
  intro row member
  rcases second row member with kept | stamped
  · exact first row kept
  · exact .inr stamped

theorem stampedAt_append {row : Row} (rows : after.rows = before.rows ++ [row])
    (stamped : stamp row = time) : StampedAt stamp time before after := by
  intro other member
  rw [rows] at member
  rcases List.mem_append.mp member with old | new
  · exact .inl old
  · rw [List.mem_singleton.mp new]
    exact .inr stamped

/-- Every row is left alone or stamped. -/
theorem stampedAt_of_rows_eq_map {change : Row → Row} (rows : after.rows = before.rows.map change)
    (stamped : ∀ row ∈ before.rows, change row = row ∨ stamp (change row) = time) :
    StampedAt stamp time before after := by
  intro row member
  rw [rows] at member
  obtain ⟨old, stored, rfl⟩ := List.mem_map.mp member
  rcases stamped old stored with same | new
  · exact .inl (same.symm ▸ stored)
  · exact .inr new

theorem stampedAt_updateWhere {condition : Row → Bool} {change : Row → Row}
    (keeps : ∀ row, key (change row) = key row)
    (stamped : ∀ row ∈ before.rows, condition row = true → stamp (change row) = time) :
    StampedAt stamp time before (before.updateWhere condition change keeps) := by
  refine stampedAt_of_rows_eq_map (rows_updateWhere ..) fun row member => ?_
  by_cases holds : condition row = true
  · rw [if_pos holds]
    exact .inr (stamped row member holds)
  · rw [if_neg holds]
    exact .inl rfl

theorem StampedAt.keepsStamps (stamped : StampedAt stamp time before after) :
    KeepsStamps stamp time before after := by
  intro row member
  exact (stamped row member).imp_left fun stored => ⟨row, stored, rfl⟩

theorem keepsStamps_updateWhere {condition : Row → Bool} {change : Row → Row}
    (keeps : ∀ row, key (change row) = key row)
    (same : ∀ row, stamp (change row) = stamp row) :
    KeepsStamps stamp time before (before.updateWhere condition change keeps) := by
  intro row member
  obtain ⟨old, stored, shape⟩ := mem_updateWhere.mp member
  refine .inl ⟨old, stored, ?_⟩
  rw [← shape]
  split
  · exact (same old).symm
  · rfl

end Writes

section Dates

variable [Preorder Moment] {stamp : Row → Moment} {time now : Moment}
  {before after later final : Table key}

theorem KeepsStamps.le (kept : KeepsStamps stamp now before after) {clock : Moment}
    (bounded : ∀ row ∈ before.rows, stamp row ≤ clock) (ordered : clock ≤ now) :
    ∀ row ∈ after.rows, stamp row ≤ now := by
  intro row member
  rcases kept row member with ⟨old, stored, same⟩ | stamped
  · rw [← same]
    exact (bounded old stored).trans ordered
  · exact stamped.le

variable [DecidableEq Key]

/-- A row of the new table that the write has changed carries its time. -/
theorem StampedAt.datesChanges (stamped : StampedAt stamp time before after) :
    DatesChanges stamp time before after after := by
  intro row member changed
  rcases stamped row member with kept | new
  · exact absurd ((get?_of_mem kept).trans (get?_of_mem member).symm) changed
  · exact new.ge

/-- A later write leaves the stamp or writes a later one. -/
theorem DatesChanges.step (dates : DatesChanges stamp time before after later)
    (stamped : StampedAt stamp now later final) (ordered : time ≤ now) :
    DatesChanges stamp time before after final := by
  intro row member changed
  rcases stamped row member with kept | new
  · exact dates row kept changed
  · exact ordered.trans new.ge

theorem not_datesChanges {old new : Row} (stored : old ∈ before.rows) (written : new ∈ after.rows)
    (sameKey : key new = key old) (changed : new ≠ old) (sameStamp : stamp new = stamp old)
    (early : stamp old < time) : ¬ DatesChanges stamp time before after after := by
  intro dates
  refine absurd (dates new written ?_) (not_le_of_gt (sameStamp ▸ early))
  rw [get?_of_mem written, sameKey, get?_of_mem stored]
  exact fun same => changed (Option.some.inj same).symm

end Dates

end Table

namespace Machine

variable {State Action : Type} (machine : Machine State Action)

/-- What each step did is related to every state from there on. -/
def AfterEach (related : State → Action → State → State → Prop) (start : State)
    (actions : List Action) : Prop :=
  ∀ before action between after earlier next later,
    actions = before ++ action :: (between ++ after) →
      machine.run start before = some earlier → machine.step earlier action = some next →
        machine.run next between = some later → related earlier action next later

variable {machine} {related : State → Action → State → State → Prop}
  {condition : State → Action → Prop} {start : State} {actions : List Action}

/-- A relation that each step under the condition begins, and keeps for the steps before it. -/
theorem afterEach_of_meets
    (begins : ∀ {state action next}, condition state action →
      machine.step state action = some next → related state action next next)
    (continues : ∀ {state action next later other final}, related state action next later →
      condition later other → machine.step later other = some final →
        related state action next final)
    (meets : machine.Meets condition start actions) :
    machine.AfterEach related start actions := by
  intro before action between after earlier next later split ran stepped reached
  subst split
  obtain ⟨met, rest⟩ := meets.append.2 earlier ran next stepped
  have kept : ∀ state other final, related earlier action next state → condition state other →
      machine.step state other = some final → related earlier action next final :=
    fun _ _ _ holds metToo steppedToo => continues holds metToo steppedToo
  exact run_preserves_of_meets kept (begins met stepped) rest.append.1 reached

/-- Conversely, if the relation fails right after every step against the condition. -/
theorem meets_of_afterEach (invariant : State → Prop)
    (keeps : ∀ {state action next}, invariant state → machine.step state action = some next →
      invariant next)
    (implies : ∀ {state action next}, invariant state →
      machine.step state action = some next → related state action next next →
        condition state action)
    (holds : invariant start) (after : machine.AfterEach related start actions) :
    machine.Meets condition start actions := by
  rw [meets_iff_forall_split]
  intro before action rest state next split ran stepped
  have reached : invariant state := run_preserves (fun _ _ _ => keeps) holds ran
  exact implies reached stepped (after before action [] rest state next next split ran stepped rfl)

end Machine

end Doorito.Foundation
