import Doorito.Foundation.History
import Doorito.Portal.CompletionAtomicity

/-! Completions wait for one another's locks, but not for ever. A completion locks the session
before the file, and the one that has locked a file can commit. -/

set_option autoImplicit false

namespace Doorito.Portal

open Foundation Common Machine

/-- The statements that are left, with the commit. -/
def CompletionPhase.remaining : CompletionPhase → Nat
  | .refreshed _ => 4
  | .counted _ => 3
  | .saved _ _ => 2
  | .updated _ _ _ => 1
  | .ended => 0

/-- A completion that is open goes on. -/
def StatementAction.Continues : StatementAction → Prop
  | .count _ | .save _ _ | .updateFile _ | .commit _ => True
  | .insertPart _ _ _ | .countPart _ | .markFileFailed _ _ _ | .deleteFiles _ | .refresh _
  | .rollback _ => False

def StatementWorld.remaining (world : StatementWorld) : Nat :=
  (world.completions.map CompletionPhase.remaining).sum

theorem remaining_le (completions : List CompletionPhase) :
    (completions.map CompletionPhase.remaining).sum ≤ 4 * completions.length := by
  induction completions with
  | nil => exact Nat.le_refl 0
  | cons phase rest ih =>
      have one : phase.remaining ≤ 4 := by cases phase <;> simp [CompletionPhase.remaining]
      rw [List.map_cons, List.sum_cons, List.length_cons]
      omega

section Steps

variable {world next : StatementWorld} {action : StatementAction}

theorem remaining_set {completion : Nat} {old phase : CompletionPhase}
    (found : world.completions[completion]? = some old) (less : phase.remaining < old.remaining) :
    ((world.completions.set completion phase).map CompletionPhase.remaining).sum <
      world.remaining := by
  have sum := sum_map_set CompletionPhase.remaining found phase
  unfold StatementWorld.remaining
  omega

theorem remaining_step (continues : action.Continues)
    (stepped : statements.step world action = some next) : next.remaining < world.remaining := by
  cases StatementStep.of_step stepped with
  | enough found _ | tooFew found | saved found _ _ | unsaved found | updated found _
  | committed found => exact remaining_set found (by simp [CompletionPhase.remaining])
  | inserted _ | counted _ _ _ | marked _ _ | deleted _ | refreshed _ | missing | rolledBack _ =>
      exact continues.elim

variable (stuck : ∀ action : StatementAction, action.Continues →
  statements.step world action = none)
include stuck

theorem no_file_locked (file : Uuid) : world.fileLocked file = false := by
  refine List.any_eq_false.mpr fun phase member locked => ?_
  obtain ⟨completion, found⟩ := List.mem_iff_getElem?.mp member
  cases phase with
  | updated now session stores =>
      have commits := stuck (.commit completion) trivial
      simp [statements, found] at commits
  | _ => simp [CompletionPhase.storedFile?] at locked

theorem no_session_locked (session : Uuid) : world.sessionLocked session = false := by
  refine List.any_eq_false.mpr fun phase member locked => ?_
  obtain ⟨completion, found⟩ := List.mem_iff_getElem?.mp member
  cases phase with
  | saved now session =>
      have updates := stuck (.updateFile completion) trivial
      simp [statements, found, no_file_locked stuck] at updates
  | updated now session stores =>
      have commits := stuck (.commit completion) trivial
      simp [statements, found] at commits
  | _ => simp [CompletionPhase.savedSession?] at locked

/-- Where no completion can go on, none is open. -/
theorem all_ended : ∀ phase ∈ world.completions, phase = .ended := by
  intro phase member
  obtain ⟨completion, found⟩ := List.mem_iff_getElem?.mp member
  cases phase with
  | refreshed session =>
      have counts := stuck (.count completion) trivial
      simp only [statements, found] at counts
      split_ifs at counts
  | counted session =>
      have saves := stuck (.save completion 0) trivial
      simp only [statements, found, no_session_locked stuck, Bool.false_eq_true,
        if_false] at saves
      split_ifs at saves
  | saved now session =>
      have updates := stuck (.updateFile completion) trivial
      simp [statements, found, no_file_locked stuck] at updates
  | updated now session stores =>
      have commits := stuck (.commit completion) trivial
      simp [statements, found] at commits
  | ended => rfl

end Steps

/-- No deadlock: in whatever order open completions go on, they take four statements each at
most, and when none of them can go on, all of them have ended. -/
theorem completions_come_to_an_end {world later : StatementWorld} {actions : List StatementAction}
    (continues : ∀ action ∈ actions, action.Continues)
    (ran : statements.run world actions = some later) :
    actions.length ≤ 4 * world.completions.length ∧
      ((∀ action : StatementAction, action.Continues → statements.step later action = none) →
        ∀ phase ∈ later.completions, phase = .ended) := by
  refine ⟨?_, fun stuck => all_ended stuck⟩
  have bound := length_add_measure_le StatementWorld.remaining
    (fun _ _ _ => remaining_step) continues ran
  have most : world.remaining ≤ 4 * world.completions.length := remaining_le world.completions
  omega

namespace Sample

def bothRefreshed : StatementWorld :=
  (statements.run (.init uploadStarted)
    [.insertPart 0 session.pk (part 1), .refresh session.pk, .refresh session.pk]).getD
      (.init uploadStarted)

/-- The second completion waits for the commit of the first one. -/
def oneAfterTheOther : List StatementAction :=
  [.count 0, .count 1, .save 0 1, .updateFile 0, .commit 0, .save 1 2, .updateFile 1, .commit 1]

end Sample

theorem completions_come_to_an_end_two : ∃ later,
    statements.run Sample.bothRefreshed Sample.oneAfterTheOther = some later ∧
      Sample.oneAfterTheOther.length ≤ 8 ∧ ∀ phase ∈ later.completions, phase = .ended := by
  obtain ⟨later, ran, ended⟩ : ∃ later,
      statements.run Sample.bothRefreshed Sample.oneAfterTheOther = some later ∧
        later.completions = [.ended, .ended] := ⟨_, rfl, rfl⟩
  have continues : ∀ action ∈ Sample.oneAfterTheOther, action.Continues := by
    simp [Sample.oneAfterTheOther, StatementAction.Continues]
  obtain ⟨bound, all⟩ := completions_come_to_an_end continues ran
  refine ⟨later, ran, bound, all fun action goes => ?_⟩
  have noOther : ∀ (completion : Nat) (phase : CompletionPhase),
      later.completions[completion]? = some phase → phase = .ended := by
    intro completion phase found
    have member := List.mem_of_getElem? found
    rw [ended] at member
    simpa using member
  cases action with
  | count completion | save completion now | updateFile completion | commit completion =>
      simp only [statements]
      split
      · next found => cases noOther completion _ found
      · rfl
  | _ => exact goes.elim

end Doorito.Portal
