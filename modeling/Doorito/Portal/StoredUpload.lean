import Doorito.Portal.UploadOutcome

/-! What a stored upload leaves behind: its blob, its row and its event, which say the same of
the file. The hash reads the file to its end, and the save of the blob reads it again. -/

set_option autoImplicit false

namespace Doorito.Portal

open Foundation Common

/-- What a reader gets that goes on from the read position. -/
def UploadedFile.remaining (file : UploadedFile) : Bytes := file.content.drop file.position

/-- The hash leaves the whole file to be read. -/
theorem remaining_computeSha256 (file : UploadedFile) :
    (computeSha256 file).2.remaining = file.content := rfl

/-- The blob, the row and the event of a stored file. -/
structure StoresTogether (file : UploadedFile) (contentType : String) (sizeBytes : Nat)
    (before left : UploadState) (upload : UploadFile) : Prop where
  blob : left.storage.rows = before.storage.rows ++ [⟨upload.file, file.content⟩]
  row : left.database.files.rows = before.database.files.rows ++ [upload]
  status : upload.status = .stored
  sha256 : upload.sha256 = hex (Sha256.digest file.content)
  sizeBytes : upload.sizeBytes = sizeBytes
  contentType : upload.contentType = contentType
  originalFilename : upload.originalFilename = file.name
  event : ∃ event url, left.database.events.rows = before.database.events.rows ++ [event] ∧
    event.eventType = "file.stored" ∧ event.aggregateId = upload.pk.str ∧
    event.payload = .object
      [("file_id", .string upload.pk.str),
        ("original_filename", .string upload.originalFilename),
        ("content_type", .string upload.contentType), ("size_bytes", .number upload.sizeBytes 0),
        ("sha256", .string upload.sha256), ("url", .string url)]
  batches : left.database.batches = before.database.batches
  sessions : left.database.sessions = before.database.sessions
  parts : left.database.parts = before.database.parts

section Stored

variable {settings : Settings} {input : UploadInput} {user : Option Nat} {file : UploadedFile}
  {batch : Option Uuid} {state left : UploadState} {upload saved : UploadFile}

theorem createWithBlob_saves {content : Bytes}
    (created : createWithBlob input content upload state = (left, .ok saved)) :
    left.storage.rows = state.storage.rows ++ [⟨saved.file, content⟩] := by
  have through := (createWithBlob_ok_iff content).mp ⟨left, saved, created⟩
  have storage := createWithBlob_storage input content upload state
  rw [created, blobsAfter, if_pos through.saves] at storage
  rw [(createWithBlob_ok created).1]
  exact storage

/-- What is stored is what the hash has left to be read. -/
theorem createUploadFile_of_valid_remaining {contentType : String} {sizeBytes : Nat}
    (valid : validateFile settings file none = .ok (contentType, sizeBytes)) :
    createUploadFile settings input user file batch state =
      storeUpload input (computeSha256 file).2.remaining
        (storedUpload input user (file.seek 0) batch contentType sizeBytes
          (computeSha256 file).1) state :=
  createUploadFile_of_valid valid

end Stored

/-- An accepted file whose upload returns is stored whole, from any read position and in any
chunks; its row and its event agree with it, and nothing else changes. -/
theorem stored_upload_agrees {settings : Settings} {input : UploadInput} {user : Option Nat}
    {file : UploadedFile} {batch : Option Uuid} {state left : UploadState} {upload : UploadFile}
    {contentType : String} {sizeBytes : Nat}
    (valid : validateFile settings file none = .ok (contentType, sizeBytes))
    (created : createUploadFile settings input user file batch state = (left, .ok upload)) :
    StoresTogether file contentType sizeBytes state left upload := by
  rw [createUploadFile_of_valid_remaining valid, remaining_computeSha256] at created
  obtain ⟨middle, events, inserted, announced, _, rfl⟩ := storeUpload_eq_ok created
  have blob := createWithBlob_saves inserted
  obtain ⟨shape, grown⟩ := createWithBlob_ok inserted
  obtain ⟨_, files, batches, sessions, parts, sameEvents⟩ := Database.insertFile?_eq_some grown
  have rows := announceStored_rows announced
  rw [sameEvents] at rows
  have hash : upload.sha256 = hex (Sha256.digest file.content) := by
    rw [shape]
    exact computeSha256_fst file
  refine ⟨blob, files, ?_, hash, ?_, ?_, ?_, ⟨_, input.url upload.file, rows, rfl, rfl, rfl⟩,
    batches, sessions, parts⟩ <;> rw [shape] <;> rfl

/-! ## A file in two chunks, read half -/

namespace Sample

def halfRead : UploadedFile := { report with position := 2 }

def allGoesThrough : UploadInput := { insertFails with fails := fun _ => false }

theorem halfRead_created : ∃ left upload,
    createUploadFile settings allGoesThrough none halfRead none .empty = (left, .ok upload) := by
  have hashed : (computeSha256 halfRead).1.length = 64 := length_computeSha256 halfRead
  have fits : (createdRow settings allGoesThrough none halfRead none).fitsColumns := by
    rw [createdRow_of_valid rfl]
    simp only [UploadFile.fitsColumns, storedUpload, hashed]
    decide
  refine createUploadFile_ok_iff.mpr
    ⟨⟨⟨rfl, List.not_mem_nil⟩, rfl, fits, List.not_mem_nil, ?_⟩, fun _ => ?_⟩
  · intro batch none
    rw [createdRow_batch] at none
    cases none
  · rw [createdRow_of_valid rfl]
    exact ⟨by decide, rfl, rfl, by decide +kernel, rfl, List.not_mem_nil, rfl⟩

end Sample

/-- Three bytes of which two have been read before. -/
theorem stored_upload_agrees_halfRead : ∃ left upload,
    createUploadFile Sample.settings Sample.allGoesThrough none Sample.halfRead none .empty =
      (left, .ok upload) ∧
    StoresTogether Sample.halfRead "text/csv" 3 .empty left upload := by
  obtain ⟨left, upload, created⟩ := Sample.halfRead_created
  exact ⟨left, upload, created, stored_upload_agrees rfl created⟩

end Doorito.Portal
