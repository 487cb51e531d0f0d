import Doorito.Common.OutboxWorld

/-! When DELIVERED is final. Phase 3 of a run writes the copies that phase 1 read,
whatever became of the rows since; this is the only operation that can touch a
delivered row, and runs in which it never does keep every delivered row. -/

set_option autoImplicit false

namespace Doorito.Common

open Foundation

/-- A row that is DELIVERED in the earlier state is, if it is still there, the same
delivery in the later state. -/
def KeepsDelivered (earlier later : World) : Prop :=
  ∀ row ∈ earlier.events.rows, row.status = .delivered →
    ∀ kept ∈ later.events.rows, kept.pk = row.pk →
      kept.status = .delivered ∧ kept.deliveredAt = row.deliveredAt

/-- A phase 3 that commits has no result for a row that is DELIVERED. -/
def WritesNoDelivered (world : World) : Action → Prop
  | .update run now random refuses =>
      ∀ batch results, world.runs[run]? = some (.delivered batch results) →
        world.Commits now random refuses batch results → ∀ event ∈ batch,
          results.lookup event.pk ≠ none → ∀ row ∈ world.events.rows,
            row.pk = event.pk → row.status ≠ .delivered
  | _ => True

/-- Every row of the later state with an old key continues a row of the earlier one,
and the same delivery if that row was DELIVERED. -/
structure ContinuesRows (earlier later : World) : Prop where
  issued : earlier.issued ⊆ later.issued
  rows : ∀ row ∈ later.events.rows, row.pk ∈ earlier.issued →
    ∃ old ∈ earlier.events.rows, old.pk = row.pk ∧
      (old.status = .delivered →
        row.status = .delivered ∧ row.deliveredAt = old.deliveredAt)

namespace ContinuesRows

theorem refl (world : World) : ContinuesRows world world :=
  ⟨List.Subset.refl _, fun row member _ => ⟨row, member, rfl, fun delivered => ⟨delivered, rfl⟩⟩⟩

theorem trans {first second third : World} (one : ContinuesRows first second)
    (two : ContinuesRows second third) : ContinuesRows first third := by
  refine ⟨List.Subset.trans one.issued two.issued, ?_⟩
  intro row member issued
  obtain ⟨middle, middleMember, middleKey, later⟩ := two.rows row member (one.issued issued)
  obtain ⟨old, oldMember, oldKey, earlier⟩ :=
    one.rows middle middleMember (middleKey ▸ issued)
  refine ⟨old, oldMember, oldKey.trans middleKey, ?_⟩
  intro delivered
  obtain ⟨stays, sameTime⟩ := earlier delivered
  obtain ⟨staysToo, sameTimeToo⟩ := later stays
  exact ⟨staysToo, sameTimeToo.trans sameTime⟩

theorem step {world next : World} {action : Action}
    (condition : WritesNoDelivered world action)
    (stepped : outbox.step world action = some next) : ContinuesRows world next := by
  refine ⟨step_issued stepped, ?_⟩
  intro row member issued
  rcases step_row_origin stepped member with
    old | ⟨_, pk, _, _, fresh, _, rfl⟩ | ⟨run, now, random, refuses, old, rfl, oldMember, saves⟩ |
    ⟨_, _, old, _, oldMember, failed, _, rfl⟩
  · exact ⟨row, old, rfl, fun delivered => ⟨delivered, rfl⟩⟩
  · exact absurd issued fresh
  · obtain ⟨batch, results, event, result, found, commits, eventMember, lookup, key, rfl⟩ := saves
    have untouched := condition batch results found commits event eventMember (by simp [lookup])
      old oldMember key.symm
    exact ⟨old, oldMember, rfl, fun delivered => absurd delivered untouched⟩
  · refine ⟨old, oldMember, rfl, ?_⟩
    intro delivered
    rw [failed] at delivered
    cases delivered

theorem keepsDelivered {earlier later : World} (issued : earlier.RowsIssued)
    (continues : ContinuesRows earlier later) : KeepsDelivered earlier later := by
  intro row member delivered kept keptMember key
  obtain ⟨old, oldMember, oldKey, stays⟩ :=
    continues.rows kept keptMember (key ▸ issued row member)
  have same : old = row := Table.eq_of_key_eq oldMember member (oldKey.trans key)
  subst same
  exact stays delivered

end ContinuesRows

/-- In every run whose phase 3 steps find none of their rows DELIVERED, a row that is
once DELIVERED keeps its status and its time of delivery until it is deleted. -/
theorem delivered_is_absorbing_of_writesNoDelivered (events : EventTable)
    (actions : List Action)
    (meets : outbox.Meets WritesNoDelivered (.init events) actions) :
    outbox.Along KeepsDelivered (.init events) actions := by
  have along := Machine.along_of_meets World.RowsIssued ContinuesRows ContinuesRows.refl
    ContinuesRows.trans
    (fun _ _ _ issued condition stepped =>
      ⟨step_rowsIssued issued stepped, ContinuesRows.step condition stepped⟩)
    (rowsIssued_init events) meets
  exact along.mono fun _ _ continues => ContinuesRows.keepsDelivered continues.1 continues.2

/-- Neither phase 3 finds its row DELIVERED: the second run has another event, and the row of
the first one stays as it is until a cleanup deletes it. -/
theorem delivered_is_absorbing_deliverAndGoOn :
    outbox.Along KeepsDelivered (.init .empty) Sample.deliverAndGoOn := by
  refine delivered_is_absorbing_of_writesNoDelivered .empty Sample.deliverAndGoOn ?_
  refine .cons trivial rfl (.cons trivial rfl (.cons trivial rfl (.cons trivial rfl ?_)))
  refine .cons ?_ rfl (.cons trivial rfl (.cons trivial rfl (.cons trivial rfl
    (.cons trivial rfl ?_))))
  · intro batch results _ _ event _ _ row member _
    obtain rfl := List.mem_singleton.mp member
    intro delivered
    cases delivered
  · refine .cons ?_ rfl (.cons trivial rfl (.cons trivial rfl (.cons trivial rfl trivial)))
    intro batch results is _ event listed _ row member key delivered
    cases is
    obtain rfl := List.mem_singleton.mp listed
    rcases List.mem_cons.mp member with rfl | other
    · cases key
    · obtain rfl := List.mem_singleton.mp other
      cases delivered

/-- Two runs read the same event; the first delivers it and the second, whose request
is refused, puts it back to PENDING. -/
theorem delivered_is_not_absorbing :
    ¬ ∀ (events : EventTable) (actions : List Action),
      outbox.Along KeepsDelivered (.init events) actions := by
  intro absorbing
  let delivered := Sample.fetchTwice ++ Sample.finishRun 0 0 200
  let refused := Sample.finishRun 1 0 500
  have kept := absorbing .empty (delivered ++ refused) delivered refused []
    (Sample.after .empty delivered) (Sample.after .empty (delivered ++ refused)) rfl rfl rfl
    _ (List.mem_cons_self) rfl _ (List.mem_cons_self) rfl
  cases kept.1

end Doorito.Common
