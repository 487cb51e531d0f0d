import Doorito.Frontend.UploadRequests
import Doorito.Portal.BatchStatus

/-! What the upload page tells the user, next to the batch that it leaves. The view counts the
objects that its loop has collected, and `finalize_batch` the rows that it reads back. Between
the calls of a request other requests go on, which have nothing to do with its batch. -/

set_option autoImplicit false

namespace Doorito.Frontend

open Foundation Common Portal

/-! ## Runs amid other requests -/

/-- The batch and its files are the same in both states; anything else may differ. -/
structure SameBatch (batch : Uuid) (before after : UploadState) : Prop where
  row : after.database.batches.get? batch = before.database.batches.get? batch
  files : after.database.filesOf batch = before.database.filesOf batch

theorem SameBatch.refl (batch : Uuid) (state : UploadState) : SameBatch batch state state :=
  ⟨rfl, rfl⟩

/-- The loop over the files goes through to its end. -/
inductive CreatesFiles (settings : Settings) (user : Option Nat) (batch : Uuid) :
    List SubmittedFile → UploadState → UploadState → List UploadFile → Prop where
  | nil (state : UploadState) : CreatesFiles settings user batch [] state state []
  | cons {submitted : SubmittedFile} {rest : List SubmittedFile} {upload : UploadFile}
      {results : List UploadFile} {state found left last : UploadState}
      (alone : SameBatch batch state found)
      (created : createUploadFile settings submitted.input user submitted.file (some batch)
        found = (left, .ok upload))
      (later : CreatesFiles settings user batch rest left last results) :
      CreatesFiles settings user batch (submitted :: rest) state last (upload :: results)

section Alone

variable {settings : Settings} {request : UploadRequest} {state left : UploadState}

end Alone

/-! ## What the user is told -/

section Decision

end Decision

section Run

variable {settings : Settings} {request : UploadRequest} {state left : UploadState}
  {results : List UploadFile}

theorem SameBatch.present {batch : Uuid} {before after : UploadState}
    (same : SameBatch batch before after) (present : batch ∈ before.database.batches.keys) :
    batch ∈ after.database.batches.keys := by
  by_contra gone
  rw [← Table.get?_eq_none_iff, same.row, Table.get?_eq_none_iff] at gone
  exact gone present

/-- The results of the loop are the files of the batch, each STORED or FAILED. -/
theorem CreatesFiles.files {user : Option Nat} {batch : Uuid} {files : List SubmittedFile}
    (creates : CreatesFiles settings user batch files state left results)
    (present : batch ∈ state.database.batches.keys) :
    batch ∈ left.database.batches.keys ∧
      left.database.filesOf batch = state.database.filesOf batch ++ results ∧
      results.length = files.length ∧
      ∀ upload ∈ results, upload.status = .stored ∨ upload.status = .failed := by
  induction creates with
  | nil state => exact ⟨present, (List.append_nil _).symm, rfl, List.forall_mem_nil _⟩
  | cons alone created later ih =>
      obtain ⟨shape, rows, batches⟩ := createUploadFile_eq_ok created
      obtain ⟨still, listed, length, done⟩ := ih (by rw [batches]; exact alone.present present)
      refine ⟨still, ?_, by simp [length], List.forall_mem_cons.mpr ⟨?_, done⟩⟩
      · rw [listed, ← alone.files, Database.filesOf, rows, List.filter_append]
        simp [shape, Database.filesOf]
      · rw [shape]
        exact createdRow_status ..

end Run

end Doorito.Frontend
