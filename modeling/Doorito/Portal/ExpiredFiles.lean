import Doorito.Portal.Tasks

/-! What a run of the file cleanup leaves of each file that it selects. The first blob that
cannot be deleted ends the run, and with it the deletion of all rows. -/

set_option autoImplicit false

namespace Doorito.Portal

open Foundation Common

/-- The files that a run selects. -/
def expiredBatch (ttlHours : Int) (now : Time) (database : Database) : List UploadFile :=
  database.files.rows.filter fun upload =>
    upload.pk ∈ selectExpired (now - hours ttlHours) database.files

/-- The file has a blob whose deletion raises. -/
def CleanupInput.Undeletable (input : CleanupInput) (upload : UploadFile) : Prop :=
  upload.file ≠ "" ∧ input.raises upload.pk = true

/-- Row and blob are both gone. -/
def UploadFile.Gone (upload : UploadFile) (left : UploadState) : Prop :=
  upload.pk ∉ left.database.files.keys ∧
    (upload.file = "" ∨ upload.file ∉ left.storage.keys)

/-- Row and blob are both as they were. -/
def UploadFile.Kept (upload : UploadFile) (before left : UploadState) : Prop :=
  upload ∈ left.database.files.rows ∧
    left.storage.get? upload.file = before.storage.get? upload.file

/-- Every selected file is gone or kept, and gone if its blob can be deleted. -/
structure SafePerFile (ttlHours : Int) (input : CleanupInput) (before left : UploadState) :
    Prop where
  either : ∀ upload ∈ expiredBatch ttlHours input.now before.database,
    upload.Gone left ∨ upload.Kept before left
  gone : ∀ upload ∈ expiredBatch ttlHours input.now before.database,
    ¬ input.Undeletable upload → upload.Gone left

section Blobs

variable {input : CleanupInput} {upload : UploadFile} {uploads : List UploadFile}
  {storage left : Storage}

theorem deleteBlob_eq_none_iff :
    deleteBlob input.raises upload storage = none ↔ input.Undeletable upload := by
  unfold deleteBlob CleanupInput.Undeletable
  by_cases unnamed : upload.file = ""
  · simp [unnamed]
  · by_cases raises : input.raises upload.pk <;> simp [unnamed, raises]

theorem keys_deleteBlob (deleted : deleteBlob input.raises upload storage = some left) :
    left.keys ⊆ storage.keys ∧ (upload.file = "" ∨ upload.file ∉ left.keys) := by
  unfold deleteBlob at deleted
  split_ifs at deleted with unnamed raises
  · cases deleted
    exact ⟨List.Subset.refl _, .inl unnamed⟩
  · cases deleted
    refine ⟨Table.keys_deleteWhere_subset _ _, .inr ?_⟩
    intro stays
    obtain ⟨blob, member, name⟩ := Table.mem_keys.mp stays
    simpa [name] using (Table.mem_deleteWhere.mp member).2

theorem deleteBlobs_true_iff (storage : Storage) :
    (deleteBlobs input.raises uploads storage).2 = true ↔
      ∀ upload ∈ uploads, ¬ input.Undeletable upload := by
  induction uploads generalizing storage with
  | nil => simp [deleteBlobs]
  | cons upload rest ih =>
      rw [deleteBlobs, List.forall_mem_cons]
      cases deleted : deleteBlob input.raises upload storage with
      | none =>
          have undeletable := deleteBlob_eq_none_iff.mp deleted
          simp [undeletable]
      | some left =>
          have deletable : ¬ input.Undeletable upload := by
            intro undeletable
            rw [deleteBlob_eq_none_iff.mpr undeletable] at deleted
            cases deleted
          simp only [ih, deletable, not_false_eq_true, true_and]

theorem keys_deleteBlobs (done : (deleteBlobs input.raises uploads storage).2 = true) :
    (deleteBlobs input.raises uploads storage).1.keys ⊆ storage.keys ∧
      ∀ upload ∈ uploads, upload.file = "" ∨
        upload.file ∉ (deleteBlobs input.raises uploads storage).1.keys := by
  induction uploads generalizing storage with
  | nil => exact ⟨List.Subset.refl _, by simp⟩
  | cons upload rest ih =>
      rw [deleteBlobs] at done ⊢
      cases deleted : deleteBlob input.raises upload storage with
      | none => simp [deleted] at done
      | some left =>
          simp only [deleted] at done ⊢
          obtain ⟨fewer, gone⟩ := keys_deleteBlob deleted
          obtain ⟨later, rest⟩ := ih done
          refine ⟨List.Subset.trans later fewer, List.forall_mem_cons.mpr ⟨?_, rest⟩⟩
          exact gone.imp_right fun absent stays => absent (later stays)

theorem deleteBlobs_of_all_undeletable (storage : Storage)
    (undeletable : ∀ upload ∈ uploads, input.Undeletable upload) :
    (deleteBlobs input.raises uploads storage).1 = storage := by
  cases uploads with
  | nil => rfl
  | cons upload rest =>
      rw [deleteBlobs, deleteBlob_eq_none_iff.mpr (undeletable upload List.mem_cons_self)]

end Blobs

section Run

variable {ttlHours : Int} {input : CleanupInput} {before : UploadState} {upload : UploadFile}

theorem mem_expiredBatch {now : Time} {database : Database}
    (member : upload ∈ expiredBatch ttlHours now database) :
    upload ∈ database.files.rows ∧ upload.createdAt < now - hours ttlHours := by
  obtain ⟨stored, selected⟩ := List.mem_filter.mp member
  refine ⟨stored, ?_⟩
  have chosen : upload.pk ∈ selectExpired (now - hours ttlHours) database.files := by
    simpa using selected
  have listed := (List.perm_insertionSort _ _).subset (List.mem_of_mem_take chosen)
  obtain ⟨row, rowMember, key⟩ := List.mem_map.mp listed
  obtain ⟨rowStored, expired⟩ := List.mem_filter.mp rowMember
  rw [← Table.eq_of_key_eq rowStored stored key]
  simpa [UploadFile.isExpired] using expired

/-- A run that finds expired files goes through its loop, and deletes the rows if nothing
raised there. -/
theorem cleanup_of_expired
    (some : before.database.files.count (·.isExpired (input.now - hours ttlHours)) ≠ 0) :
    let batch := input.order.arrange (expiredBatch ttlHours input.now before.database)
    let loop := deleteBlobs input.raises batch before.storage
    (cleanupExpiredUploadFiles ttlHours input before).1 =
      if loop.2 then
        ⟨before.database.deleteFiles
          (selectExpired (input.now - hours ttlHours) before.database.files), loop.1⟩
      else { before with storage := loop.1 } := by
  intro batch loop
  simp only [cleanupExpiredUploadFiles, if_neg some]
  split
  · next storage left =>
    have ended : loop = (storage, false) := left
    simp only [ended, Bool.false_eq_true, if_false]
  · next storage left =>
    have ended : loop = (storage, true) := left
    simp only [ended, if_true]

theorem count_of_mem (member : upload ∈ expiredBatch ttlHours input.now before.database) :
    before.database.files.count (·.isExpired (input.now - hours ttlHours)) ≠ 0 := by
  obtain ⟨stored, expired⟩ := mem_expiredBatch member
  apply Nat.ne_of_gt
  apply List.countP_pos_iff.mpr
  exact ⟨upload, stored, by simpa [UploadFile.isExpired] using expired⟩

theorem mem_arranged :
    upload ∈ input.order.arrange (expiredBatch ttlHours input.now before.database) ↔
      upload ∈ expiredBatch ttlHours input.now before.database :=
  (input.order.perm _).mem_iff

/-- One blob that cannot be deleted keeps the row of every file. -/
theorem database_of_undeletable
    (member : upload ∈ expiredBatch ttlHours input.now before.database)
    (undeletable : input.Undeletable upload) :
    (cleanupExpiredUploadFiles ttlHours input before).1.database = before.database := by
  rw [cleanup_of_expired (count_of_mem member), if_neg]
  intro done
  exact (deleteBlobs_true_iff before.storage).mp done upload (mem_arranged.mpr member) undeletable

theorem gone_of_deletable
    (deletable : ∀ upload ∈ expiredBatch ttlHours input.now before.database,
      ¬ input.Undeletable upload)
    (member : upload ∈ expiredBatch ttlHours input.now before.database) :
    upload.Gone (cleanupExpiredUploadFiles ttlHours input before).1 := by
  have done := (deleteBlobs_true_iff before.storage).mpr
    fun other otherMember => deletable other (mem_arranged.mp otherMember)
  rw [cleanup_of_expired (count_of_mem member), if_pos done]
  constructor
  · intro stays
    obtain ⟨row, rowMember, key⟩ := Table.mem_keys.mp stays
    have selected := (List.mem_filter.mp member).2
    have left := (Table.mem_deleteWhere.mp rowMember).2
    rw [key, selected] at left
    cases left
  · exact (keys_deleteBlobs done).2 upload (mem_arranged.mpr member)

theorem kept_of_all_undeletable
    (undeletable : ∀ upload ∈ expiredBatch ttlHours input.now before.database,
      input.Undeletable upload)
    (member : upload ∈ expiredBatch ttlHours input.now before.database) :
    upload.Kept before (cleanupExpiredUploadFiles ttlHours input before).1 := by
  have untouched := deleteBlobs_of_all_undeletable before.storage
    fun other otherMember => undeletable other (mem_arranged.mp otherMember)
  constructor
  · rw [database_of_undeletable member (undeletable upload member)]
    exact (mem_expiredBatch member).1
  · rw [cleanup_of_expired (count_of_mem member), if_neg]
    · rw [untouched]
    · intro done
      exact (deleteBlobs_true_iff before.storage).mp done upload (mem_arranged.mpr member)
        (undeletable upload member)

end Run

/-- A run is safe for each file that it selects if and only if none of their blobs or all of
them cannot be deleted. -/
theorem cleanup_safe_per_file_iff (ttlHours : Int) (input : CleanupInput)
    (before : UploadState) :
    SafePerFile ttlHours input before (cleanupExpiredUploadFiles ttlHours input before).1 ↔
      (∀ upload ∈ expiredBatch ttlHours input.now before.database,
        ¬ input.Undeletable upload) ∨
      (∀ upload ∈ expiredBatch ttlHours input.now before.database,
        input.Undeletable upload) := by
  constructor
  · intro safe
    by_contra mixed
    simp only [not_or, not_forall, not_not] at mixed
    obtain ⟨⟨bad, badMember, undeletable⟩, good, goodMember, deletable⟩ := mixed
    obtain ⟨rowGone, _⟩ := safe.gone good goodMember deletable
    rw [database_of_undeletable badMember undeletable] at rowGone
    exact rowGone (Table.mem_keys_of_mem (mem_expiredBatch goodMember).1)
  · intro uniform
    rcases uniform with deletable | undeletable
    · constructor
      · intro upload member
        exact .inl (gone_of_deletable deletable member)
      · intro upload member _
        exact gone_of_deletable deletable member
    · constructor
      · intro upload member
        exact .inr (kept_of_all_undeletable undeletable member)
      · intro upload member deletable
        exact absurd (undeletable upload member) deletable

/-! ## Two expired files, one of which cannot be deleted -/

namespace Sample

def expired (key : Nat) (name : String) : UploadFile :=
  { file with
    pk := uuid key
    file := name
    status := .stored }

def twoExpired : UploadState where
  database :=
    { Database.empty with
      files := ⟨[expired 0 "uploads/a.csv", expired 1 "uploads/b.csv"], by decide⟩
      fileBatch := by decide
      sessionFile := by decide }
  storage := ⟨[⟨"uploads/a.csv", []⟩, ⟨"uploads/b.csv", []⟩], by decide⟩

def secondFails : CleanupInput := ⟨hours 25, .stored, fun pk => pk = uuid 1⟩

end Sample

/-- The first file loses its blob and keeps its row. -/
theorem cleanup_is_not_safe_per_file :
    ¬ ∀ (ttlHours : Int) (input : CleanupInput) (before : UploadState),
      SafePerFile ttlHours input before (cleanupExpiredUploadFiles ttlHours input before).1 := by
  intro safe
  have first : Sample.expired 0 "uploads/a.csv" ∈
      expiredBatch 24 (hours 25) Sample.twoExpired.database := List.mem_cons_self
  rcases (safe 24 Sample.secondFails Sample.twoExpired).either _ first with gone | kept
  · exact gone.1 (Table.mem_keys_of_mem List.mem_cons_self)
  · cases kept.2

end Doorito.Portal
