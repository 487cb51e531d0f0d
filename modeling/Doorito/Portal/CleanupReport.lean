import Doorito.Foundation.Selection
import Doorito.Portal.ExpiredFiles

/-! What a run of the file cleanup reports. It takes the number that the deletion returns for
a number of files, and that number counts the sessions and parts that go with them. -/

set_option autoImplicit false

namespace Doorito.Portal

open Foundation Common

def expiredKeys (cutoff : Time) (files : FileTable) : List Uuid :=
  (files.rows.filter (·.isExpired cutoff)).map (·.pk)

/-- The chosen files are gone, with their sessions and the parts of these, and nothing else. -/
structure Database.WithoutFiles (chosen : List Uuid) (before left : Database) : Prop where
  files : left.files.rows = before.files.rows.filter (·.pk ∉ chosen)
  sessions : left.sessions.rows = before.sessions.rows.filter (·.file ∉ chosen)
  parts : left.parts.rows = before.parts.rows.filter (·.session ∈ left.sessions.keys)
  batches : left.batches = before.batches
  events : left.events = before.events

/-- The files removed and the expired files left. -/
@[mk_iff]
structure CleanupResult.Exact (result : CleanupResult) (cutoff : Time)
    (before left : FileTable) : Prop where
  deleted : result.deleted + left.rows.length = before.rows.length
  remaining : result.remaining = left.count (·.isExpired cutoff)

section Cascade

variable {database : Database} {pks : List Uuid}

/-- A part goes with its session. -/
theorem deleteFiles_withoutFiles (database : Database) (pks : List Uuid) :
    database.WithoutFiles pks (database.deleteFiles pks) := by
  refine ⟨?_, ?_, ?_, rfl, rfl⟩
  · exact List.filter_congr fun upload _ => (decide_not ..).symm
  · exact List.filter_congr fun session _ => (decide_not ..).symm
  · refine List.filter_congr fun part member => ?_
    obtain ⟨session, stored, key⟩ := Table.mem_keys.mp (database.partSession part member)
    rw [Bool.eq_iff_iff, Bool.not_eq_true', List.any_eq_false, decide_eq_true_iff, Table.mem_keys]
    constructor
    · intro kept
      refine ⟨session, Table.mem_deleteWhere.mpr ⟨stored, ?_⟩, key⟩
      simpa [key] using kept session stored
    · intro kept other otherStored
      obtain ⟨row, rowMember, rowKey⟩ := kept
      obtain ⟨rowStored, rowKept⟩ := Table.mem_deleteWhere.mp rowMember
      simp only [Bool.decide_and, Bool.and_eq_true, decide_eq_true_eq, not_and]
      intro same
      rw [Table.eq_of_key_eq otherStored rowStored (same.trans rowKey.symm)]
      exact of_decide_eq_false rowKept

/-- The sessions and parts that the deletion of files takes along. -/
def Database.cascadedCount (database : Database) (pks : List Uuid) : Nat :=
  let left := database.deleteFiles pks
  (database.sessions.rows.length - left.sessions.rows.length) +
    (database.parts.rows.length - left.parts.rows.length)

theorem deletedCount_eq (distinct : pks.Nodup) (known : pks ⊆ database.files.keys) :
    database.deletedCount pks = pks.length + database.cascadedCount pks := by
  have files := Table.length_deleteWhere database.files (·.pk ∈ pks)
  rw [Table.count_mem_keys distinct known] at files
  have removed : database.files.rows.length - (database.deleteFiles pks).files.rows.length =
      pks.length := Nat.sub_eq_of_eq_add' files.symm
  rw [Database.deletedCount, Database.cascadedCount, ← removed]
  exact Nat.add_assoc ..

theorem cascadedCount_eq_zero_iff :
    database.cascadedCount pks = 0 ↔ ∀ session ∈ database.sessions.rows, session.file ∉ pks := by
  have left := deleteFiles_withoutFiles database pks
  rw [Database.cascadedCount, Nat.add_eq_zero_iff]
  constructor
  · intro none session member
    have length := List.length_filter_eq_length_iff.mp
      (Nat.le_antisymm (List.length_filter_le _ _)
        (left.sessions ▸ Nat.sub_eq_zero_iff_le.mp none.1))
    exact of_decide_eq_true (length session member)
  · intro none
    have sessions : (database.deleteFiles pks).sessions.rows = database.sessions.rows := by
      rw [left.sessions, List.filter_eq_self]
      exact fun session member => decide_eq_true (none session member)
    have parts : (database.deleteFiles pks).parts.rows = database.parts.rows := by
      rw [left.parts, List.filter_eq_self]
      intro part member
      rw [Table.keys, sessions]
      exact decide_eq_true (database.partSession part member)
    rw [sessions, parts, Nat.sub_self, Nat.sub_self]
    exact ⟨rfl, rfl⟩

end Cascade

section Run

variable {ttlHours : Int} {input : CleanupInput} {before : UploadState}

theorem lowestOf_selectExpired (cutoff : Time) (files : FileTable) :
    LowestOf (· ≤ ·) expiredBatchSize (expiredKeys cutoff files) (selectExpired cutoff files) :=
  lowestOf_take_insertionSort _ (files.unique.sublist (List.filter_sublist.map _))

theorem selectExpired_subset_keys (cutoff : Time) (files : FileTable) :
    selectExpired cutoff files ⊆ files.keys :=
  List.Subset.trans (lowestOf_selectExpired cutoff files).subset
    (List.filter_sublist.map _).subset

theorem withoutFiles_nil (database : Database) : database.WithoutFiles [] database := by
  refine ⟨?_, ?_, ?_, rfl, rfl⟩
  · simp
  · simp
  · exact (List.filter_eq_self.mpr fun part member =>
      decide_eq_true (database.partSession part member)).symm

/-- A run whose blob deletions all go through. -/
theorem cleanup_of_deletable
    (deletable : ∀ upload ∈ expiredBatch ttlHours input.now before.database,
      ¬ input.Undeletable upload) :
    let cutoff := input.now - hours ttlHours
    let chosen := selectExpired cutoff before.database.files
    let deletedCount := before.database.deletedCount chosen
    ∃ left, before.database.WithoutFiles chosen left.database ∧
      cleanupExpiredUploadFiles ttlHours input before =
        (left, some ⟨deletedCount,
          before.database.files.count (·.isExpired cutoff) - deletedCount⟩) := by
  intro cutoff chosen deletedCount
  have lowest : LowestOf _ _ _ chosen := lowestOf_selectExpired cutoff before.database.files
  by_cases none : before.database.files.count (·.isExpired cutoff) = 0
  · have empty : chosen = [] := by
      rw [← List.length_eq_zero_iff, lowest.length, expiredKeys, List.length_map,
        ← List.countP_eq_length_filter]
      exact Nat.min_eq_zero_iff.mpr (.inr none)
    have zero : deletedCount = 0 := by
      rw [show deletedCount = before.database.deletedCount chosen from rfl, empty,
        deletedCount_eq List.nodup_nil (List.nil_subset _)]
      exact (Nat.zero_add _).trans (cascadedCount_eq_zero_iff.mpr (by simp))
    refine ⟨before, empty ▸ withoutFiles_nil before.database, ?_⟩
    rw [zero, none, cleanupExpiredUploadFiles, if_pos none]
  · have done := (deleteBlobs_true_iff before.storage).mpr
      fun upload member => deletable upload (mem_arranged.mp member)
    refine ⟨⟨before.database.deleteFiles chosen, (deleteBlobs input.raises
      (input.order.arrange (expiredBatch ttlHours input.now before.database)) before.storage).1⟩,
      deleteFiles_withoutFiles before.database chosen, ?_⟩
    simp only [cleanupExpiredUploadFiles]
    rw [if_neg none]
    split
    · next storage left =>
      rw [expiredBatch, left] at done
      cases done
    · next storage left =>
      rw [expiredBatch, left]

end Run

section Report

variable {cutoff : Time} {before left : Database}

/-- The expired files that are left. -/
theorem count_isExpired_of_withoutFiles
    (removed : before.WithoutFiles (selectExpired cutoff before.files) left) :
    left.files.count (·.isExpired cutoff) + (selectExpired cutoff before.files).length =
      before.files.count (·.isExpired cutoff) := by
  have chosen := lowestOf_selectExpired cutoff before.files
  have files : left.files = before.files.deleteWhere (·.pk ∈ selectExpired cutoff before.files) :=
    Table.ext (removed.files.trans
      (deleteFiles_withoutFiles before (selectExpired cutoff before.files)).files.symm)
  rw [files,
    ← Table.count_mem_keys chosen.distinct (selectExpired_subset_keys cutoff before.files),
    ← Table.count_deleteWhere before.files
      (·.pk ∈ selectExpired cutoff before.files) (·.isExpired cutoff)]
  congr 1
  refine List.countP_congr fun upload member => ?_
  rw [Bool.and_eq_true, iff_and_self]
  intro selected
  obtain ⟨other, otherMember, key⟩ := List.mem_map.mp (chosen.subset (of_decide_eq_true selected))
  obtain ⟨stored, expired⟩ := List.mem_filter.mp otherMember
  rw [← Table.eq_of_key_eq stored member key]
  exact expired

theorem length_of_withoutFiles
    (removed : before.WithoutFiles (selectExpired cutoff before.files) left) :
    left.files.rows.length + (selectExpired cutoff before.files).length =
      before.files.rows.length := by
  have chosen := lowestOf_selectExpired cutoff before.files
  rw [removed.files,
    ← Table.count_mem_keys chosen.distinct (selectExpired_subset_keys cutoff before.files),
    ← Table.length_deleteWhere before.files (·.pk ∈ selectExpired cutoff before.files),
    ← (deleteFiles_withoutFiles before (selectExpired cutoff before.files)).files]
  rfl

/-- The counts are right if and only if no session went with the files. -/
theorem exact_iff_cascadedCount
    (removed : before.WithoutFiles (selectExpired cutoff before.files) left) :
    CleanupResult.Exact
        ⟨before.deletedCount (selectExpired cutoff before.files),
          before.files.count (·.isExpired cutoff) -
            before.deletedCount (selectExpired cutoff before.files)⟩
        cutoff before.files left.files ↔
      before.cascadedCount (selectExpired cutoff before.files) = 0 := by
  have expired := count_isExpired_of_withoutFiles removed
  have length := length_of_withoutFiles removed
  rw [deletedCount_eq (lowestOf_selectExpired cutoff before.files).distinct
    (selectExpired_subset_keys cutoff before.files), CleanupResult.exact_iff]
  dsimp only
  constructor
  · intro exact
    have deleted := exact.1
    omega
  · intro none
    rw [none]
    constructor <;> omega

end Report

/-- A run whose blob deletions all go through removes the expired files with the lowest keys,
their sessions and the parts of these. Its counts are right if and only if none of these files
has a session. -/
theorem cleanup_report_exact_iff (ttlHours : Int) (input : CleanupInput) (before : UploadState)
    (deletable : ∀ upload ∈ expiredBatch ttlHours input.now before.database,
      ¬ input.Undeletable upload) :
    ∃ left result chosen,
      cleanupExpiredUploadFiles ttlHours input before = (left, some result) ∧
        LowestOf (· ≤ ·) expiredBatchSize
          (expiredKeys (input.now - hours ttlHours) before.database.files) chosen ∧
        before.database.WithoutFiles chosen left.database ∧
        (result.Exact (input.now - hours ttlHours) before.database.files left.database.files ↔
          ∀ session ∈ before.database.sessions.rows, session.file ∉ chosen) := by
  obtain ⟨left, removed, ran⟩ := cleanup_of_deletable deletable
  refine ⟨left, _, _, ran, lowestOf_selectExpired _ _, removed, ?_⟩
  rw [exact_iff_cascadedCount removed, cascadedCount_eq_zero_iff]

/-! ## Expired files without and with a session -/

namespace Sample

def noneFails : CleanupInput := ⟨hours 25, .stored, fun _ => false⟩

theorem noneFails_deletable (upload : UploadFile) : ¬ noneFails.Undeletable upload :=
  fun undeletable => Bool.false_ne_true undeletable.2

def chunkedSession : UploadSession :=
  { pk := uuid 1
    file := file.pk
    status := .inProgress
    chunkSizeBytes := 500
    totalSizeBytes := 1000
    totalParts := 2
    bytesReceived := 0
    completedParts := 0
    createdAt := 0
    updatedAt := 0 }

def expiredUpload : UploadState where
  database :=
    { fileStarted with
      sessions := ⟨[chunkedSession], by decide⟩
      sessionFile := by decide
      partSession := by decide }
  storage := .empty

end Sample

/-- Two files without a session. -/
theorem cleanup_report_exact_iff_twoExpired :
    ∃ left result chosen,
      cleanupExpiredUploadFiles 24 Sample.noneFails Sample.twoExpired = (left, some result) ∧
        LowestOf (· ≤ ·) expiredBatchSize
          (expiredKeys (hours 25 - hours 24) Sample.twoExpired.database.files) chosen ∧
        Sample.twoExpired.database.WithoutFiles chosen left.database ∧
        result.Exact (hours 25 - hours 24) Sample.twoExpired.database.files
          left.database.files := by
  obtain ⟨left, result, chosen, ran, lowest, removed, exact⟩ :=
    cleanup_report_exact_iff 24 Sample.noneFails Sample.twoExpired
      fun upload _ => Sample.noneFails_deletable upload
  exact ⟨left, result, chosen, ran, lowest, removed, exact.mpr (List.forall_mem_nil _)⟩

/-- The run removes one file and says two. -/
theorem cleanup_report_counts_sessions :
    ¬ ∀ (ttlHours : Int) (input : CleanupInput) (before left : UploadState)
      (result : CleanupResult),
      (∀ upload ∈ expiredBatch ttlHours input.now before.database,
        ¬ input.Undeletable upload) →
      cleanupExpiredUploadFiles ttlHours input before = (left, some result) →
      result.Exact (input.now - hours ttlHours) before.database.files left.database.files := by
  intro exact
  have claimed := exact 24 Sample.noneFails Sample.expiredUpload _ _
    (fun upload _ => Sample.noneFails_deletable upload) rfl
  exact absurd claimed.deleted (by decide)

end Doorito.Portal
