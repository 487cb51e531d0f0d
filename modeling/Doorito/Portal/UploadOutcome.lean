import Doorito.Portal.UploadAtomicity

/-! When a direct upload goes through, read off its input and the state that it finds. -/

set_option autoImplicit false

namespace Doorito.Portal

open Foundation Common

/-- Storage takes the blob, and the database the row. -/
structure RowGoesThrough (input : UploadInput) (upload : UploadFile) (state : UploadState) :
    Prop where
  saves : SavesBlob input state.storage
  inserts : input.fails .insertFile = false
  fits : upload.fitsColumns
  fresh : upload.pk ∉ state.database.files.keys
  known : ∀ batch ∈ upload.batch, batch ∈ state.database.batches.keys

/-- The database takes the event, and the transaction commits. -/
structure EventGoesThrough (input : UploadInput) (upload : UploadFile) (events : EventTable) :
    Prop where
  named : upload.file ≠ ""
  fileUrl : input.fails .fileUrl = false
  inserts : input.fails .insertEvent = false
  fits : ((upload.emission "file.stored" (upload.payload (input.url upload.file))).event
    input.now input.eventPk).fitsColumns
  unique : ((upload.emission "file.stored" (upload.payload (input.url upload.file))).event
    input.now input.eventPk).isUniqueIn events
  fresh : input.eventPk ∉ events.keys
  commits : input.fails .commit = false

/-- The row that a call of `create_upload_file` inserts. -/
def createdRow (settings : Settings) (input : UploadInput) (user : Option Nat)
    (file : UploadedFile) (batch : Option Uuid) : UploadFile :=
  let row :=
    match validateFile settings file none with
    | .error invalid => failedUpload input user file batch invalid
    | .ok (contentType, sizeBytes) =>
        storedUpload input user (file.seek 0) batch contentType sizeBytes (computeSha256 file).1
  { row with file := input.blobName }

/-- A file that fails validation is inserted without an event. -/
structure UploadGoesThrough (settings : Settings) (input : UploadInput) (user : Option Nat)
    (file : UploadedFile) (batch : Option Uuid) (state : UploadState) : Prop where
  row : RowGoesThrough input (createdRow settings input user file batch) state
  event : (createdRow settings input user file batch).status = .stored →
    EventGoesThrough input (createdRow settings input user file batch) state.database.events

section Row

variable {input : UploadInput} {content : Bytes} {upload : UploadFile} {state : UploadState}

theorem insertFile?_isSome_iff {database : Database} :
    (∃ grown, database.insertFile? upload = some grown) ↔
      upload.pk ∉ database.files.keys ∧ ∀ batch ∈ upload.batch, batch ∈ database.batches.keys := by
  unfold Database.insertFile?
  by_cases fresh : upload.pk ∉ database.files.keys
  · by_cases known : ∀ batch ∈ upload.batch, batch ∈ database.batches.keys
    · rw [dif_pos fresh, dif_pos known]
      exact ⟨fun _ => ⟨fresh, known⟩, fun _ => ⟨_, rfl⟩⟩
    · rw [dif_pos fresh, dif_neg known]
      simp only [reduceCtorEq, exists_false, false_iff]
      exact fun both => known both.2
  · rw [dif_neg fresh]
    simp [fresh]

theorem createWithBlob_ok_iff (content : Bytes) :
    (∃ left saved, createWithBlob input content upload state = (left, .ok saved)) ↔
      RowGoesThrough input { upload with file := input.blobName } state := by
  constructor
  · intro created
    obtain ⟨left, saved, result⟩ := created
    unfold createWithBlob at result
    split_ifs at result with failsSave failsInsert
    · cases result
    · split at result <;> cases result
    · split at result
      · cases result
      · next storage stored =>
        simp only at result
        split at result
        · next fits =>
          split at result <;> cases result
          next grown inserted =>
          obtain ⟨fresh, known⟩ := insertFile?_isSome_iff.mp ⟨grown, inserted⟩
          exact ⟨⟨by simpa using failsSave, (Table.insert?_eq_some_iff.mp stored).1⟩,
            by simpa using failsInsert, fits, fresh, known⟩
        · cases result
  · intro through
    have stored : state.storage.insert? ⟨input.blobName, content⟩ = some _ :=
      dif_pos through.saves.2
    obtain ⟨grown, inserted⟩ := insertFile?_isSome_iff.mpr ⟨through.fresh, through.known⟩
    unfold createWithBlob
    simp only [through.saves.1, stored, through.inserts, through.fits, inserted,
      Bool.false_eq_true, if_false, if_true]
    exact ⟨_, _, rfl⟩

end Row

section Event

variable {input : UploadInput} {upload : UploadFile} {events : EventTable}

theorem announceStored_ok_iff :
    (∃ grown, announceStored input upload events = .ok grown) ∧ input.fails .commit = false ↔
      EventGoesThrough input upload events := by
  constructor
  · intro done
    obtain ⟨⟨grown, announced⟩, commits⟩ := done
    unfold announceStored at announced
    by_cases unnamed : upload.file = ""
    · simp [UploadFile.url, unnamed] at announced
      split_ifs at announced
    · simp only [UploadFile.url, unnamed, if_false] at announced
      split_ifs at announced with failsUrl failsEvent
      obtain ⟨fits, unique, fresh⟩ :=
        emitEvent_ok_iff.mp ⟨grown, mapError_eq_ok_iff.mp announced⟩
      exact ⟨unnamed, by simpa using failsUrl, by simpa using failsEvent, fits, unique, fresh,
        commits⟩
  · intro through
    refine ⟨?_, through.commits⟩
    obtain ⟨grown, emitted⟩ :=
      emitEvent_ok_iff.mpr ⟨through.fits, through.unique, through.fresh⟩
    refine ⟨grown, ?_⟩
    simp only [announceStored, UploadFile.url, through.fileUrl, through.named, through.inserts,
      Bool.false_eq_true, if_false]
    exact mapError_eq_ok_iff.mpr emitted

end Event

section Transaction

variable {input : UploadInput} {content : Bytes} {upload : UploadFile} {state : UploadState}

theorem storeUpload_eq_ok {left : UploadState} {saved : UploadFile}
    (stored : storeUpload input content upload state = (left, .ok saved)) :
    ∃ middle events, createWithBlob input content upload state = (middle, .ok saved) ∧
      announceStored input saved middle.database.events = .ok events ∧
      input.fails .commit = false ∧
      left = { middle with database := { middle.database with events } } := by
  unfold storeUpload at stored
  split at stored
  · cases stored
  · next middle row created =>
    cases announced : announceStored input row middle.database.events with
    | error error => simp [announced] at stored
    | ok events =>
        simp only [announced] at stored
        split_ifs at stored with fails
        · cases stored
        · cases stored
          exact ⟨middle, events, created, announced, by simpa using fails, rfl⟩

theorem createWithBlob_events {left : UploadState} {saved : UploadFile}
    (created : createWithBlob input content upload state = (left, .ok saved)) :
    left.database.files.rows = state.database.files.rows ++ [saved] ∧
      left.database.batches = state.database.batches ∧
      left.database.events = state.database.events := by
  obtain ⟨_, inserted⟩ := createWithBlob_ok created
  obtain ⟨_, files, batches, _, _, events⟩ := Database.insertFile?_eq_some inserted
  exact ⟨files, batches, events⟩

theorem storeUpload_ok_iff :
    (∃ left saved, storeUpload input content upload state = (left, .ok saved)) ↔
      RowGoesThrough input { upload with file := input.blobName } state ∧
        EventGoesThrough input { upload with file := input.blobName } state.database.events := by
  constructor
  · intro done
    obtain ⟨left, saved, stored⟩ := done
    obtain ⟨middle, events, created, announced, commits, _⟩ := storeUpload_eq_ok stored
    have row := (createWithBlob_ok_iff content).mp ⟨middle, saved, created⟩
    have same := (createWithBlob_events created).2.2
    obtain ⟨rfl, _⟩ := createWithBlob_ok created
    rw [same] at announced
    exact ⟨row, announceStored_ok_iff.mp ⟨⟨events, announced⟩, commits⟩⟩
  · intro through
    obtain ⟨row, event⟩ := through
    obtain ⟨middle, saved, created⟩ := (createWithBlob_ok_iff content).mpr row
    have same := (createWithBlob_events created).2.2
    obtain ⟨rfl, _⟩ := createWithBlob_ok created
    obtain ⟨⟨events, announced⟩, commits⟩ := announceStored_ok_iff.mpr event
    unfold storeUpload
    rw [created]
    simp only [same, announced, commits, Bool.false_eq_true, if_false]
    exact ⟨_, _, rfl⟩

end Transaction

/-! ## The whole call -/

section Call

variable {settings : Settings} {input : UploadInput} {user : Option Nat} {file : UploadedFile}
  {batch : Option Uuid} {state : UploadState}

theorem createUploadFile_of_error {error : UploadError} {left : UploadState}
    (failed : createUploadFile settings input user file batch state = (left, .error error)) :
    left.database = state.database := by
  cases outcome : validateFile settings file none with
  | error invalid =>
      rw [createUploadFile_of_invalid outcome] at failed
      exact createWithBlob_error failed
  | ok valid =>
      rw [createUploadFile_of_valid outcome] at failed
      exact storeUpload_error failed

theorem createdRow_status (settings : Settings) (input : UploadInput) (user : Option Nat)
    (file : UploadedFile) (batch : Option Uuid) :
    (createdRow settings input user file batch).status = .stored ∨
      (createdRow settings input user file batch).status = .failed := by
  unfold createdRow
  cases validateFile settings file none with
  | error invalid => exact .inr rfl
  | ok valid => exact .inl rfl

@[simp] theorem createdRow_batch :
    (createdRow settings input user file batch).batch = batch := by
  unfold createdRow
  cases validateFile settings file none <;> rfl

@[simp] theorem createdRow_pk :
    (createdRow settings input user file batch).pk = input.pk := by
  unfold createdRow
  cases validateFile settings file none <;> rfl

@[simp] theorem createdRow_originalFilename :
    (createdRow settings input user file batch).originalFilename = file.name := by
  unfold createdRow
  cases validateFile settings file none <;> rfl

theorem createdRow_of_valid {contentType : String} {sizeBytes : Nat}
    (valid : validateFile settings file none = .ok (contentType, sizeBytes)) :
    createdRow settings input user file batch =
      { storedUpload input user (file.seek 0) batch contentType sizeBytes
          (computeSha256 file).1 with file := input.blobName } := by
  unfold createdRow
  rw [valid]

theorem createdRow_of_invalid {invalid : ValidationError}
    (rejected : validateFile settings file none = .error invalid) :
    createdRow settings input user file batch =
      { failedUpload input user file batch invalid with file := input.blobName } := by
  unfold createdRow
  rw [rejected]

theorem createUploadFile_ok_iff :
    (∃ left upload, createUploadFile settings input user file batch state =
        (left, .ok upload)) ↔ UploadGoesThrough settings input user file batch state := by
  cases outcome : validateFile settings file none with
  | error invalid =>
      rw [createUploadFile_of_invalid outcome, createWithBlob_ok_iff,
        ← createdRow_of_invalid outcome]
      refine ⟨fun row => ⟨row, ?_⟩, UploadGoesThrough.row⟩
      rw [createdRow_of_invalid outcome]
      simp [failedUpload]
  | ok valid =>
      rw [createUploadFile_of_valid outcome, storeUpload_ok_iff, ← createdRow_of_valid outcome]
      have stored : (createdRow settings input user file batch).status = .stored := by
        rw [createdRow_of_valid outcome]
        rfl
      exact ⟨fun both => ⟨both.1, fun _ => both.2⟩,
        fun through => ⟨through.row, through.event stored⟩⟩

theorem createUploadFile_eq_ok {left : UploadState} {upload : UploadFile}
    (created : createUploadFile settings input user file batch state = (left, .ok upload)) :
    upload = createdRow settings input user file batch ∧
      left.database.files.rows = state.database.files.rows ++ [upload] ∧
      left.database.batches = state.database.batches := by
  cases outcome : validateFile settings file none with
  | error invalid =>
      rw [createUploadFile_of_invalid outcome] at created
      obtain ⟨files, batches, _⟩ := createWithBlob_events created
      exact ⟨(createWithBlob_ok created).1.trans (createdRow_of_invalid outcome).symm, files,
        batches⟩
  | ok valid =>
      rw [createUploadFile_of_valid outcome] at created
      obtain ⟨middle, events, inserted, _, _, rfl⟩ := storeUpload_eq_ok created
      obtain ⟨files, batches, _⟩ := createWithBlob_events inserted
      exact ⟨(createWithBlob_ok inserted).1.trans (createdRow_of_valid outcome).symm, files,
        batches⟩

end Call

end Doorito.Portal
