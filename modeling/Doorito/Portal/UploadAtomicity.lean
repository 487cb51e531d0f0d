import Doorito.Portal.UploadProperties

/-! What a direct upload that raises leaves behind. The transaction covers the row and the
event; the blob is written inside of it and to another store, from which nothing takes it
back. -/

set_option autoImplicit false

namespace Doorito.Portal

open Foundation Common

/-- Storage takes the blob: its save does not fail, and the name is free. -/
def SavesBlob (input : UploadInput) (storage : Storage) : Prop :=
  input.fails .saveBlob = false ∧ input.blobName ∉ storage.keys

instance (input : UploadInput) (storage : Storage) : Decidable (SavesBlob input storage) :=
  inferInstanceAs (Decidable (_ ∧ _))

/-- The blobs of a storage after a call that has tried to save one. -/
def blobsAfter (input : UploadInput) (content : Bytes) (storage : Storage) : List Blob :=
  storage.rows ++ if SavesBlob input storage then [⟨input.blobName, content⟩] else []

section Storage

variable {input : UploadInput} {content : Bytes} {upload : UploadFile} {state : UploadState}

/-- Whatever becomes of the row. -/
theorem createWithBlob_storage (input : UploadInput) (content : Bytes) (upload : UploadFile)
    (state : UploadState) :
    (createWithBlob input content upload state).1.storage.rows =
      blobsAfter input content state.storage := by
  unfold createWithBlob blobsAfter
  by_cases fails : input.fails .saveBlob
  · rw [if_pos fails, if_neg (fun saves => by simp [saves.1] at fails), List.append_nil]
  · rw [if_neg fails]
    cases saved : state.storage.insert? ⟨input.blobName, content⟩ with
    | none =>
        have taken : ¬ SavesBlob input state.storage := by
          intro saves
          have fresh : (Blob.mk input.blobName content).name ∉ state.storage.keys := saves.2
          rw [Table.insert?, dif_pos fresh] at saved
          cases saved
        simp only [taken, if_false, List.append_nil]
    | some storage =>
        obtain ⟨fresh, rows⟩ := Table.insert?_eq_some_iff.mp saved
        have saves : SavesBlob input state.storage := ⟨by simpa using fails, fresh⟩
        rw [if_pos saves, ← rows]
        simp only
        split_ifs
        · rfl
        · split <;> rfl
        · rfl

theorem storeUpload_storage (input : UploadInput) (content : Bytes) (upload : UploadFile)
    (state : UploadState) :
    (storeUpload input content upload state).1.storage.rows =
      blobsAfter input content state.storage := by
  rw [← createWithBlob_storage input content upload state]
  unfold storeUpload
  split
  · next saved error created => rw [created]
  · next saved stored created =>
    rw [created]
    split
    · rfl
    · split_ifs <;> rfl

theorem storeUpload_error {left : UploadState} {error : UploadError}
    (failed : storeUpload input content upload state = (left, .error error)) :
    left.database = state.database := by
  unfold storeUpload at failed
  split at failed
  · next created =>
    cases failed
    exact createWithBlob_error created
  · split at failed
    · cases failed
      rfl
    · split_ifs at failed
      · cases failed
        rfl
      · cases failed

end Storage

/-! ## An upload whose insert fails -/

namespace Sample

def settings : Settings := { guessType := fun _ => some "text/csv" }

def report : UploadedFile := ⟨"report.csv", [[1, 2], [3]], 0⟩

def insertFails : UploadInput :=
  { now := 0
    pk := uuid 0
    eventPk := uuid 1
    blobName := "uploads/report.csv"
    url := id
    fails := fun stage => stage = .insertFile }

end Sample

/-- A direct upload that raises leaves the database as it was, whether the insert, the URL,
the event or the commit failed; and storage keeps the blob, if it was saved. -/
theorem failed_upload_leaves_blob {settings : Settings} {input : UploadInput}
    {user : Option Nat} {file : UploadedFile} {batch : Option Uuid} {state left : UploadState}
    {error : UploadError}
    (failed : createUploadFile settings input user file batch state = (left, .error error)) :
    left.database = state.database ∧
      left.storage.rows = blobsAfter input file.content state.storage := by
  cases outcome : validateFile settings file none with
  | error invalid =>
      rw [createUploadFile_of_invalid outcome] at failed
      have storage := createWithBlob_storage input file.content
        (failedUpload input user file batch invalid) state
      rw [failed] at storage
      exact ⟨createWithBlob_error failed, storage⟩
  | ok valid =>
      rw [createUploadFile_of_valid outcome] at failed
      have storage := storeUpload_storage input file.content (storedUpload input user
        (file.seek 0) batch valid.1 valid.2 (computeSha256 file).1) state
      rw [failed] at storage
      exact ⟨storeUpload_error failed, storage⟩

/-- The insert of the row fails after the blob was saved. -/
theorem failed_upload_leaves_blob_insertFails :
    ∃ left error, createUploadFile Sample.settings Sample.insertFails none Sample.report none
        .empty = (left, .error error) ∧
      left.database = UploadState.empty.database ∧
      left.storage.rows = blobsAfter Sample.insertFails Sample.report.content
        UploadState.empty.storage := by
  have failed : createUploadFile Sample.settings Sample.insertFails none Sample.report none
      .empty = (_, .error (.raised .insertFile)) := rfl
  exact ⟨_, _, failed, failed_upload_leaves_blob failed⟩

/-- The blob of a file whose row was never inserted is in storage. -/
theorem failed_upload_is_not_undone :
    ¬ ∀ (settings : Settings) (input : UploadInput) (user : Option Nat) (file : UploadedFile)
      (batch : Option Uuid) (state left : UploadState) (error : UploadError),
      (∃ valid, validateFile settings file none = .ok valid) →
      input.fails .saveBlob = false → input.blobName ∉ state.storage.keys →
      createUploadFile settings input user file batch state = (left, .error error) →
      left.database = state.database ∧ ∀ blob ∈ left.storage.rows, blob ∈ state.storage.rows := by
  intro undone
  have nothing := (undone Sample.settings Sample.insertFails none Sample.report none .empty _ _
    ⟨_, rfl⟩ rfl (by decide) rfl).2 _ List.mem_cons_self
  cases nothing

end Doorito.Portal
