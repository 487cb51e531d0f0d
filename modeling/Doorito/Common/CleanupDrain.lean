import Doorito.Common.UpdateProperties
import Doorito.Foundation.Selection
import Mathlib.Algebra.Order.Floor.Div

/-! How repeated cleanups get through the expired terminal events. At one cutoff the sorted
keys of these events are cut into slices of the batch size, and each run deletes the next. -/

set_option autoImplicit false

namespace Doorito.Common

open Foundation

/-- A call whose clock reading and retention give the cutoff. -/
structure CleanupRun (cutoff : Time) where
  now : Time
  retentionHours : Int
  reaches : now - hours retentionHours = cutoff

/-- The runs one after the other, with no other writer. -/
def cleanupRuns {cutoff : Time} (runs : List (CleanupRun cutoff)) (events : EventTable) :
    EventTable :=
  runs.foldl (fun found run => (cleanupDeliveredEvents run.now run.retentionHours found).1) events

/-- The keys of the expired terminal events, in primary-key order. -/
def terminalKeys (cutoff : Time) (events : EventTable) : List Uuid :=
  ((events.rows.filter (·.isExpiredTerminal cutoff)).map (·.pk)).insertionSort (· ≤ ·)

/-- The rows of the chosen keys are gone, and the counts say so. -/
structure CleanupSummary.Exact (summary : CleanupSummary) (cutoff : Time) (chosen : List Uuid)
    (found left : EventTable) : Prop where
  rows : left.rows = found.rows.filter (·.pk ∉ chosen)
  size : summary.deleted = min cleanupBatchSize (found.count (·.isExpiredTerminal cutoff))
  deleted : summary.deleted + left.rows.length = found.rows.length
  remaining : summary.remaining = left.count (·.isExpiredTerminal cutoff)

section Keys

variable {cutoff : Time} {events : EventTable}

theorem selectTerminal_eq :
    selectTerminal cutoff events = (terminalKeys cutoff events).take cleanupBatchSize := by
  rw [selectTerminal, terminalKeys, List.map_insertionSort _ (· ≤ ·)]
  exact fun _ _ _ _ => Iff.rfl

theorem terminalKeys_perm :
    (terminalKeys cutoff events).Perm
      ((events.rows.filter (·.isExpiredTerminal cutoff)).map (·.pk)) :=
  List.perm_insertionSort _ _

theorem terminalKeys_nodup : (terminalKeys cutoff events).Nodup :=
  terminalKeys_perm.nodup_iff.mpr (events.unique.sublist (List.filter_sublist.map _))

theorem length_terminalKeys :
    (terminalKeys cutoff events).length = events.count (·.isExpiredTerminal cutoff) := by
  rw [terminalKeys_perm.length_eq, List.length_map, Table.count, List.countP_eq_length_filter]

theorem mem_terminalKeys_iff {row : OutboxEvent} (member : row ∈ events.rows) :
    row.pk ∈ terminalKeys cutoff events ↔ row.isExpiredTerminal cutoff = true := by
  rw [terminalKeys_perm.mem_iff, List.mem_map]
  constructor
  · intro listed
    obtain ⟨other, otherMember, same⟩ := listed
    obtain ⟨stored, expired⟩ := List.mem_filter.mp otherMember
    rw [← Table.eq_of_key_eq stored member same]
    exact expired
  · intro expired
    exact ⟨row, List.mem_filter.mpr ⟨member, expired⟩, rfl⟩

theorem selectTerminal_subset : selectTerminal cutoff events ⊆ terminalKeys cutoff events := by
  rw [selectTerminal_eq]
  exact List.take_subset _ _

end Keys

/-! ## One run -/

section Run

variable {cutoff : Time}

/-- Also a run that finds nothing deletes what it would select. -/
theorem cleanup_events (run : CleanupRun cutoff) (found : EventTable) :
    (cleanupDeliveredEvents run.now run.retentionHours found).1 =
      deleteEvents (selectTerminal cutoff found) found := by
  simp only [cleanupDeliveredEvents, run.reaches]
  split
  · next none =>
    have empty : selectTerminal cutoff found = [] := by
      rw [← length_terminalKeys, List.length_eq_zero_iff] at none
      rw [selectTerminal_eq, none, List.take_nil]
    refine Table.ext (List.filter_eq_self.mpr ?_).symm
    simp [empty]
  · rfl

theorem cleanup_rows (run : CleanupRun cutoff) (found : EventTable) :
    (cleanupDeliveredEvents run.now run.retentionHours found).1.rows =
      found.rows.filter (·.pk ∉ selectTerminal cutoff found) := by
  rw [cleanup_events]
  exact List.filter_congr fun row _ => (decide_not ..).symm

/-- The run takes the first slice of the sorted keys. -/
theorem terminalKeys_cleanup (run : CleanupRun cutoff) (found : EventTable) :
    terminalKeys cutoff (cleanupDeliveredEvents run.now run.retentionHours found).1 =
      (terminalKeys cutoff found).drop cleanupBatchSize := by
  have expired : ((found.rows.filter (·.isExpiredTerminal cutoff)).map (·.pk)).Nodup :=
    found.unique.sublist (List.filter_sublist.map _)
  have kept := insertionSort_filter_not_mem_take (fun left right : Uuid => left ≤ right)
    cleanupBatchSize expired
  rw [List.filter_map] at kept
  rw [terminalKeys, cleanup_rows, List.filter_filter, terminalKeys, ← kept, List.filter_filter,
    selectTerminal_eq, terminalKeys]
  congr 3
  funext row
  exact Bool.and_comm ..

theorem count_selectTerminal (cutoff : Time) (found : EventTable) :
    found.count (fun row => decide (row.pk ∈ selectTerminal cutoff found)) =
      min cleanupBatchSize (found.count (·.isExpiredTerminal cutoff)) := by
  have known : selectTerminal cutoff found ⊆ found.keys := by
    intro pk member
    obtain ⟨row, stored, rfl, _⟩ := mem_selectTerminal member
    exact Table.mem_keys_of_mem stored
  have distinct : (selectTerminal cutoff found).Nodup := by
    rw [selectTerminal_eq]
    exact terminalKeys_nodup.sublist (List.take_sublist _ _)
  rw [Table.count_mem_keys distinct known, selectTerminal_eq, List.length_take,
    length_terminalKeys]

theorem cleanup_exact (run : CleanupRun cutoff) (found : EventTable) :
    (cleanupDeliveredEvents run.now run.retentionHours found).2.Exact cutoff
      (selectTerminal cutoff found) found
      (cleanupDeliveredEvents run.now run.retentionHours found).1 := by
  have size := count_selectTerminal cutoff found
  have length := Table.length_deleteWhere found
    fun row => decide (row.pk ∈ selectTerminal cutoff found)
  rw [size] at length
  have left := congrArg List.length (terminalKeys_cleanup run found)
  rw [length_terminalKeys, List.length_drop, length_terminalKeys] at left
  have summary : (cleanupDeliveredEvents run.now run.retentionHours found).2 =
      ⟨min cleanupBatchSize (found.count (·.isExpiredTerminal cutoff)),
        found.count (·.isExpiredTerminal cutoff) -
          min cleanupBatchSize (found.count (·.isExpiredTerminal cutoff))⟩ := by
    simp only [cleanupDeliveredEvents, run.reaches]
    split
    · next none => rw [none, Nat.min_zero]
    · rw [size]
  rw [summary]
  refine ⟨cleanup_rows run found, rfl, ?_, ?_⟩
  · rw [cleanup_events, Nat.add_comm]
    exact length
  · rw [left]
    dsimp only
    omega

/-- No other row is touched. -/
theorem cleanup_untouched (run : CleanupRun cutoff) (found : EventTable) :
    (cleanupDeliveredEvents run.now run.retentionHours found).1.rows.filter
        (fun row => !row.isExpiredTerminal cutoff) =
      found.rows.filter (fun row => !row.isExpiredTerminal cutoff) := by
  rw [cleanup_rows, List.filter_filter]
  refine List.filter_congr fun row member => ?_
  cases expired : row.isExpiredTerminal cutoff with
  | true => rfl
  | false =>
      refine decide_eq_true fun selected => ?_
      have listed := (mem_terminalKeys_iff member).mp (selectTerminal_subset selected)
      rw [expired] at listed
      cases listed

end Run

/-! ## Runs one after the other -/

section Runs

variable {cutoff : Time} {events : EventTable}

theorem cleanupRuns_append (earlier later : List (CleanupRun cutoff)) :
    cleanupRuns (earlier ++ later) events = cleanupRuns later (cleanupRuns earlier events) :=
  List.foldl_append ..

/-- Each run moves on by one slice. -/
theorem terminalKeys_cleanupRuns (runs : List (CleanupRun cutoff)) :
    terminalKeys cutoff (cleanupRuns runs events) =
      (terminalKeys cutoff events).drop (cleanupBatchSize * runs.length) := by
  induction runs generalizing events with
  | nil => rfl
  | cons run rest ih =>
      rw [cleanupRuns, List.foldl_cons]
      refine ih.trans ?_
      rw [terminalKeys_cleanup, List.drop_drop, List.length_cons, Nat.mul_succ, Nat.add_comm]

theorem cleanupRuns_untouched (runs : List (CleanupRun cutoff)) :
    (cleanupRuns runs events).rows.filter (fun row => !row.isExpiredTerminal cutoff) =
      events.rows.filter (fun row => !row.isExpiredTerminal cutoff) := by
  induction runs generalizing events with
  | nil => rfl
  | cons run rest ih =>
      rw [cleanupRuns, List.foldl_cons]
      exact ih.trans (cleanup_untouched run events)

theorem cleanupRuns_of_none (runs : List (CleanupRun cutoff))
    (none : events.count (·.isExpiredTerminal cutoff) = 0) : cleanupRuns runs events = events := by
  induction runs with
  | nil => rfl
  | cons run rest ih =>
      have unchanged : (cleanupDeliveredEvents run.now run.retentionHours events).1 = events := by
        simp only [cleanupDeliveredEvents, run.reaches]
        rw [if_pos none]
      rw [cleanupRuns, List.foldl_cons, unchanged]
      exact ih

end Runs

/-- Runs at one cutoff, from any table. Each deletes the next slice of the sorted keys of the
expired terminal events and says how many it deleted and how many are left. So many runs as the
batch size goes into their number, rounded up, leave none, later runs change nothing, and the
other rows stay as they are. -/
theorem cleanup_drains_terminal {cutoff : Time} (events : EventTable)
    (runs : List (CleanupRun cutoff)) :
    (∀ earlier run later, runs = earlier ++ run :: later →
      let found := cleanupRuns earlier events
      ∃ left summary,
        cleanupDeliveredEvents run.now run.retentionHours found = (left, summary) ∧
          summary.Exact cutoff
            (((terminalKeys cutoff events).drop (cleanupBatchSize * earlier.length)).take
              cleanupBatchSize) found left) ∧
      (∀ earlier later, runs = earlier ++ later →
        events.count (·.isExpiredTerminal cutoff) ⌈/⌉ cleanupBatchSize ≤ earlier.length →
          (cleanupRuns earlier events).count (·.isExpiredTerminal cutoff) = 0 ∧
            cleanupRuns runs events = cleanupRuns earlier events) ∧
      (cleanupRuns runs events).rows.filter (fun row => !row.isExpiredTerminal cutoff) =
        events.rows.filter (fun row => !row.isExpiredTerminal cutoff) := by
  refine ⟨?_, ?_, cleanupRuns_untouched runs⟩
  · intro earlier run later _ found
    refine ⟨_, _, rfl, ?_⟩
    rw [← terminalKeys_cleanupRuns, ← selectTerminal_eq]
    exact cleanup_exact run found
  · intro earlier later split enough
    have taken : events.count (·.isExpiredTerminal cutoff) ≤ cleanupBatchSize * earlier.length :=
      (ceilDiv_le_iff_le_mul (by decide)).mp enough
    have none : (cleanupRuns earlier events).count (·.isExpiredTerminal cutoff) = 0 := by
      rw [← length_terminalKeys, terminalKeys_cleanupRuns, List.length_drop, length_terminalKeys]
      exact Nat.sub_eq_zero_of_le taken
    refine ⟨none, ?_⟩
    rw [split, cleanupRuns_append]
    exact cleanupRuns_of_none later none

/-! ## A DELIVERED, a FAILED and a PENDING event -/

namespace Sample

def pendingEvent : OutboxEvent := { event with pk := ⟨5, by decide⟩ }

def oneOfEach : EventTable :=
  ⟨[{ event with
      status := .delivered
      deliveredAt := some 0
      nextAttemptAt := none },
    { expiringEvent with
      status := .failed
      attempts := 5
      nextAttemptAt := none },
    pendingEvent], by decide⟩

def lateCleanup : CleanupRun (hours 200 - hours 168) := ⟨hours 200, 168, rfl⟩

end Sample

/-- The first run deletes two events, the second none, and the PENDING event stays. -/
theorem cleanup_drains_terminal_oneOfEach :
    let once := cleanupRuns [Sample.lateCleanup] Sample.oneOfEach
    let twice := cleanupRuns [Sample.lateCleanup, Sample.lateCleanup] Sample.oneOfEach
    (cleanupDeliveredEvents (hours 200) 168 Sample.oneOfEach).2.deleted = 2 ∧
      once.count (·.isExpiredTerminal (hours 200 - hours 168)) = 0 ∧
      twice = once ∧ Sample.pendingEvent ∈ twice.rows := by
  intro once twice
  obtain ⟨each, drained, untouched⟩ :=
    cleanup_drains_terminal Sample.oneOfEach [Sample.lateCleanup, Sample.lateCleanup]
  obtain ⟨left, summary, ran, exact⟩ := each [] Sample.lateCleanup [Sample.lateCleanup] rfl
  obtain ⟨none, same⟩ := drained [Sample.lateCleanup] [Sample.lateCleanup] rfl (by decide)
  refine ⟨?_, none, same, ?_⟩
  · have deleted : summary.deleted = 2 := exact.size
    rw [← deleted]
    exact congrArg (·.2.deleted) ran
  · have waiting : Sample.pendingEvent ∈ Sample.oneOfEach.rows.filter
        (fun row => !row.isExpiredTerminal (hours 200 - hours 168)) := List.mem_singleton.mpr rfl
    rw [← untouched] at waiting
    exact (List.mem_filter.mp waiting).1

end Doorito.Common
