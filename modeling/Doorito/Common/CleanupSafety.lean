import Doorito.Common.OutboxWorld

/-! What cleanup deletes. Cleanup selects the keys of terminal rows in one statement
and deletes by key in a later one. The rows are still terminal at the delete unless an
admin reset or a late retry has made one of them PENDING in between. -/

set_option autoImplicit false

namespace Doorito.Common

open Foundation

def CleanupPhase.selectedKeys : CleanupPhase → List Uuid
  | .selected _ batchPks => batchPks
  | .counted _ _ | .ended => []

/-- Some cleanup in progress is going to delete the key. -/
def World.Doomed (world : World) (pk : Uuid) : Prop :=
  ∃ phase ∈ world.cleanups, pk ∈ phase.selectedKeys

/-- Every row that a delete removes is DELIVERED or FAILED when it goes. -/
def DeletesTerminal (world : World) : Action → Prop
  | .cleanupDelete cleanup =>
      ∀ next, outbox.step world (.cleanupDelete cleanup) = some next →
        ∀ row ∈ world.events.rows, row ∉ next.events.rows →
          row.status = .delivered ∨ row.status = .failed
  | _ => True

/-- No row whose key a cleanup has selected is reset, and no phase 3 that commits has
a failed result with attempts left for one. -/
def RevivesNone (world : World) : Action → Prop
  | .retryFailedEvents _ selected =>
      ∀ row ∈ world.events.rows, row.status = .failed → row.pk ∈ selected →
        ¬ world.Doomed row.pk
  | .update run now random refuses =>
      ∀ batch results, world.runs[run]? = some (.delivered batch results) →
        world.Commits now random refuses batch results → ∀ event ∈ batch, ∀ result,
          results.lookup event.pk = some result → result.allOk = false →
            event.attempts + 1 < event.maxAttempts → ¬ world.Doomed event.pk
  | _ => True

structure DoomedInvariant (world : World) : Prop where
  issued : world.RowsIssued
  doomedIssued : ∀ pk, world.Doomed pk → pk ∈ world.issued
  terminal : ∀ row ∈ world.events.rows, world.Doomed row.pk → row.status ≠ .pending

theorem step_doomed {world next : World} {action : Action}
    (stepped : outbox.step world action = some next) {pk : Uuid}
    (doomed : next.Doomed pk) :
    world.Doomed pk ∨ ∃ cutoff, pk ∈ selectTerminal cutoff world.events ∧
      next.events = world.events := by
  obtain ⟨phase, member, chosen⟩ := doomed
  cases steps_of_step stepped with
  | counted =>
      rcases List.mem_append.mp member with old | new
      · exact .inl ⟨phase, old, chosen⟩
      · -- A cleanup that has only counted holds no keys.
        simp only [List.mem_singleton] at new
        subst new
        split at chosen <;> cases chosen
  | @selected cleanup cutoff totalTerminal was =>
      rcases List.mem_or_eq_of_mem_set member with old | rfl
      · exact .inl ⟨phase, old, chosen⟩
      · exact .inr ⟨cutoff, chosen, rfl⟩
  | deleted was =>
      rcases List.mem_or_eq_of_mem_set member with old | rfl
      · exact .inl ⟨phase, old, chosen⟩
      · cases chosen
  | cleanupDied was =>
      rcases List.mem_or_eq_of_mem_set member with old | rfl
      · exact .inl ⟨phase, old, chosen⟩
      · cases chosen
  | _ => exact .inl ⟨phase, member, chosen⟩

theorem step_doomedInvariant {world next : World} {action : Action}
    (invariant : DoomedInvariant world) (condition : RevivesNone world action)
    (stepped : outbox.step world action = some next) : DoomedInvariant next := by
  refine ⟨step_rowsIssued invariant.issued stepped, ?_, ?_⟩
  · intro pk doomed
    refine step_issued stepped ?_
    rcases step_doomed stepped doomed with old | ⟨cutoff, selected, _⟩
    · exact invariant.doomedIssued pk old
    · obtain ⟨row, member, rfl, _⟩ := mem_selectTerminal selected
      exact invariant.issued row member
  · intro row member doomed pending
    rcases step_doomed stepped doomed with old | ⟨cutoff, selected, same⟩
    · rcases step_row_origin stepped member with
        kept | ⟨_, _, _, _, fresh, _, rfl⟩ | ⟨_, _, _, _, stored, rfl, storedMember, saves⟩ |
        ⟨_, _, stored, rfl, storedMember, failed, chosen, rfl⟩
      · exact invariant.terminal row kept old pending
      · exact fresh (invariant.doomedIssued _ old)
      · obtain ⟨batch, results, event, result, found, finds, eventMember, lookup, key, rfl⟩ :=
          saves
        obtain ⟨refused, left⟩ := saved_pending pending
        exact condition batch results found finds event eventMember result lookup refused left
          (key ▸ old)
      · exact condition stored storedMember failed chosen old
    · obtain ⟨stored, storedMember, key, terminal⟩ := mem_selectTerminal selected
      rw [same] at member
      obtain rfl := Table.eq_of_key_eq storedMember member key
      exact isExpiredTerminal_status terminal pending

theorem deletesTerminal {world : World} {action : Action}
    (invariant : DoomedInvariant world) : DeletesTerminal world action := by
  cases action with
  | cleanupDelete cleanup =>
      intro next stepped row member removed
      cases steps_of_step stepped with
      | @deleted _ totalTerminal batchPks was =>
          have chosen : row.pk ∈ batchPks := by
            by_contra kept
            exact removed (mem_deleteEvents.mpr ⟨member, kept⟩)
          have terminal := invariant.terminal row member
            ⟨_, List.mem_of_getElem? was, chosen⟩
          cases status : row.status with
          | pending => exact absurd status terminal
          | delivered => exact .inl rfl
          | failed => exact .inr rfl
  | _ => trivial

/-- In every run in which no row selected by a cleanup becomes PENDING again before
the delete, every deleted row is DELIVERED or FAILED when it is deleted. -/
theorem cleanup_deletes_terminal_of_revivesNone (events : EventTable)
    (actions : List Action) (meets : outbox.Meets RevivesNone (.init events) actions) :
    outbox.Meets DeletesTerminal (.init events) actions := by
  refine meets.of_invariant DoomedInvariant
    (fun _ _ _ => step_doomedInvariant) (fun _ _ invariant _ => deletesTerminal invariant) ?_
  refine ⟨rowsIssued_init events, ?_, ?_⟩
  · intro pk doomed
    obtain ⟨phase, none, _⟩ := doomed
    cases none
  · intro row _ doomed
    obtain ⟨phase, none, _⟩ := doomed
    cases none

/-- A cleanup of a failed event that nobody touches. -/
theorem cleanup_deletes_terminal_failedTable :
    outbox.Meets DeletesTerminal (.init Sample.failedTable)
      (Sample.selectFailed ++ [.cleanupDelete 0]) :=
  cleanup_deletes_terminal_of_revivesNone Sample.failedTable _
    (.cons trivial rfl (.cons trivial rfl (.cons trivial rfl trivial)))

/-- The failed event is reset between the selection of its key and the delete. -/
theorem cleanup_deletes_pending :
    ¬ ∀ (events : EventTable) (actions : List Action),
      outbox.Meets DeletesTerminal (.init events) actions := by
  intro safe
  let upToReset := Sample.selectFailed ++ [.retryFailedEvents (hours 200) [Sample.key]]
  have meets := safe Sample.failedTable (upToReset ++ [.cleanupDelete 0])
  obtain ⟨delete, _⟩ := meets.append.2 (Sample.after Sample.failedTable upToReset) rfl _ rfl
  rcases delete _ rfl _ List.mem_cons_self List.not_mem_nil with delivered | failed
  · cases delivered
  · cases failed

end Doorito.Common
