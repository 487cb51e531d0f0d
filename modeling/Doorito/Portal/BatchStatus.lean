import Doorito.Portal.Batches

/-! What a finalized batch says about its files. The decision counts STORED and FAILED files
and takes a batch without FAILED ones for complete, also while a file of it is UPLOADING. -/

set_option autoImplicit false

namespace Doorito.Portal

open Foundation Common

/-- COMPLETE stands for files that are all STORED, FAILED for no files or files that are all
FAILED, and PARTIAL for some of each. -/
structure UploadBatch.Status.Documented (status : UploadBatch.Status)
    (fileStatuses : List UploadFile.Status) : Prop where
  complete : status = .complete ↔
    fileStatuses ≠ [] ∧ ∀ fileStatus ∈ fileStatuses, fileStatus = .stored
  failed : status = .failed ↔
    fileStatuses = [] ∨ ∀ fileStatus ∈ fileStatuses, fileStatus = .failed
  partlyStored : status = .partlyStored → .stored ∈ fileStatuses ∧ .failed ∈ fileStatuses
  uploading : .uploading ∈ fileStatuses → status ≠ .complete

section Decision

variable {fileStatuses : List UploadFile.Status}

theorem countP_status_eq_zero_iff {status : UploadFile.Status} :
    fileStatuses.countP (fun fileStatus => decide (fileStatus = status)) = 0 ↔
      status ∉ fileStatuses := by
  rw [List.countP_eq_zero]
  constructor
  · intro none member
    exact none status member (decide_eq_true rfl)
  · intro absent fileStatus member same
    exact absent (of_decide_eq_true same ▸ member)

theorem finalStatus_eq_complete_iff :
    finalStatus fileStatuses = .complete ↔ fileStatuses ≠ [] ∧ .failed ∉ fileStatuses := by
  simp only [finalStatus, List.isEmpty_iff, countP_status_eq_zero_iff]
  split_ifs <;> simp [*]

theorem finalStatus_eq_failed_iff :
    finalStatus fileStatuses = .failed ↔
      fileStatuses = [] ∨ .failed ∈ fileStatuses ∧ .stored ∉ fileStatuses := by
  simp only [finalStatus, List.isEmpty_iff, countP_status_eq_zero_iff]
  split_ifs <;> simp_all

theorem finalStatus_eq_partlyStored_iff :
    finalStatus fileStatuses = .partlyStored ↔
      .stored ∈ fileStatuses ∧ .failed ∈ fileStatuses := by
  simp only [finalStatus, List.isEmpty_iff, countP_status_eq_zero_iff]
  split_ifs <;> simp_all

theorem finalStatus_documented_of_done (done : .uploading ∉ fileStatuses) :
    (finalStatus fileStatuses).Documented fileStatuses := by
  refine ⟨?_, ?_, finalStatus_eq_partlyStored_iff.mp, fun uploading => absurd uploading done⟩
  · rw [finalStatus_eq_complete_iff]
    refine and_congr_right fun _ => ?_
    constructor
    · intro noneFailed fileStatus member
      cases fileStatus with
      | uploading => exact absurd member done
      | stored => rfl
      | failed => exact absurd member noneFailed
    · intro all failed
      cases all _ failed
  · rw [finalStatus_eq_failed_iff]
    constructor
    · intro either
      refine either.imp_right ?_
      intro onlyFailed fileStatus member
      cases fileStatus with
      | uploading => exact absurd member done
      | stored => exact absurd member onlyFailed.2
      | failed => rfl
    · intro either
      by_cases empty : fileStatuses = []
      · exact .inl empty
      · have all := either.resolve_left empty
        obtain ⟨first, member⟩ := List.exists_mem_of_ne_nil _ empty
        refine .inr ⟨all first member ▸ member, ?_⟩
        intro stored
        cases all _ stored

theorem finalStatus_documented_of_mixed (stored : .stored ∈ fileStatuses)
    (failed : .failed ∈ fileStatuses) :
    (finalStatus fileStatuses).Documented fileStatuses := by
  have nonempty : fileStatuses ≠ [] := List.ne_nil_of_mem stored
  have status := finalStatus_eq_partlyStored_iff.mpr ⟨stored, failed⟩
  rw [status]
  refine ⟨iff_of_false (by decide) ?_, iff_of_false (by decide) ?_, fun _ => ⟨stored, failed⟩,
    fun _ => by decide⟩
  · intro all
    cases all.2 _ failed
  · intro either
    cases either.resolve_left nonempty _ stored

/-- A file in status UPLOADING is overlooked unless there are STORED and FAILED ones too. -/
theorem finalStatus_documented_iff :
    (finalStatus fileStatuses).Documented fileStatuses ↔
      .uploading ∉ fileStatuses ∨ .stored ∈ fileStatuses ∧ .failed ∈ fileStatuses := by
  constructor
  · intro documented
    by_contra overlooked
    obtain ⟨uploading, mixed⟩ := not_or.mp overlooked
    rw [not_not] at uploading
    have nonempty : fileStatuses ≠ [] := List.ne_nil_of_mem uploading
    by_cases failed : .failed ∈ fileStatuses
    · have status := finalStatus_eq_failed_iff.mpr
        (.inr ⟨failed, fun stored => mixed ⟨stored, failed⟩⟩)
      cases (documented.failed.mp status).resolve_left nonempty _ uploading
    · exact documented.uploading uploading (finalStatus_eq_complete_iff.mpr ⟨nonempty, failed⟩)
  · intro condition
    rcases condition with done | ⟨stored, failed⟩
    · exact finalStatus_documented_of_done done
    · exact finalStatus_documented_of_mixed stored failed

end Decision

/-- A finalized batch has the documented status if and only if no file of it is UPLOADING, or
it has STORED and FAILED files. -/
theorem finalize_batch_documented_iff (now : Time) {batch : Uuid} {database : Database}
    (present : batch ∈ database.batches.keys) :
    ∃ left, finalizeBatch now batch database = .ok left ∧
      left.filesOf batch = database.filesOf batch ∧
      ∃ row ∈ left.batches.rows, row.pk = batch ∧
        (row.status.Documented ((database.filesOf batch).map (·.status)) ↔
          (∀ file ∈ database.filesOf batch, file.status ≠ .uploading) ∨
            (∃ file ∈ database.filesOf batch, file.status = .stored) ∧
              ∃ file ∈ database.filesOf batch, file.status = .failed) := by
  obtain ⟨row, member, key⟩ := Table.mem_keys.mp present
  let status := finalStatus ((database.filesOf batch).map (·.status))
  refine ⟨_, finalizeBatch_of_mem now present, rfl, row.finalized now status, ?_, key, ?_⟩
  · simp only [Database.updateBatches, Table.rows_updateWhere, List.mem_map]
    exact ⟨row, member, by simp [key, status]⟩
  · have decision : status.Documented ((database.filesOf batch).map (·.status)) ↔ _ :=
      finalStatus_documented_iff
    simpa [List.mem_map, UploadBatch.finalized, status] using decision

/-! ## Batches with a file that is being uploaded -/

namespace Sample

def batchEmpty : Database :=
  { Database.empty with
    batches := ⟨[newBatch 0 (uuid 5) none ""], by decide⟩
    fileBatch := by decide }

def batchUploading : Database :=
  { batchEmpty with
    files := ⟨[{ file with batch := some (uuid 5) }], by decide⟩
    fileBatch := by decide
    sessionFile := by decide }

def batchFile (key : Nat) (status : UploadFile.Status) : UploadFile :=
  { file with
    pk := uuid key
    batch := some (uuid 5)
    status }

def batchMixed : Database :=
  { batchEmpty with
    files := ⟨[batchFile 0 .stored, batchFile 1 .failed, batchFile 2 .uploading], by decide⟩
    fileBatch := by decide
    sessionFile := by decide }

end Sample

/-- With a STORED and a FAILED file the UPLOADING one is not overlooked. -/
theorem finalize_batch_documented_iff_mixed :
    ∃ left, finalizeBatch 0 (Sample.uuid 5) Sample.batchMixed = .ok left ∧
      ∃ row ∈ left.batches.rows, row.pk = Sample.uuid 5 ∧
        row.status.Documented [.stored, .failed, .uploading] := by
  have present : Sample.uuid 5 ∈ Sample.batchMixed.batches.keys := List.mem_cons_self
  obtain ⟨left, finalized, _, row, member, key, documented⟩ :=
    finalize_batch_documented_iff 0 present
  refine ⟨left, finalized, row, member, key, documented.mpr (.inr ⟨?_, ?_⟩)⟩
  · exact ⟨Sample.batchFile 0 .stored, List.mem_cons_self, rfl⟩
  · exact ⟨Sample.batchFile 1 .failed, List.mem_cons_of_mem _ List.mem_cons_self, rfl⟩

/-- The batch is COMPLETE while its file is UPLOADING. -/
theorem finalized_batch_overlooks_uploading :
    ¬ ∀ (now : Time) (batch : Uuid) (database left : Database),
      finalizeBatch now batch database = .ok left → ∀ row ∈ left.batches.rows, row.pk = batch →
        row.status.Documented ((left.filesOf batch).map (·.status)) := by
  intro documented
  have claimed := documented 0 (Sample.uuid 5) Sample.batchUploading _ rfl _ List.mem_cons_self rfl
  exact claimed.uploading List.mem_cons_self rfl

end Doorito.Portal
