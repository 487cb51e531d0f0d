import Doorito.Common.UpdateProperties
import Doorito.Portal.Uploads

/-! What a direct upload and a run of the expiry sweep leave in the database. -/

set_option autoImplicit false

namespace Doorito.Portal

open Foundation Common

theorem computeSha256_fst (file : UploadedFile) :
    (computeSha256 file).1 = hex (Sha256.digest file.content) := by
  rw [computeSha256, Sha256.Hasher.foldl_update]
  rfl

theorem length_computeSha256 (file : UploadedFile) : (computeSha256 file).1.length = 64 := by
  rw [computeSha256_fst, length_hex, Sha256.length_digest]

section Emission

theorem mapError_eq_ok_iff {Error Other Value : Type} {change : Error → Other}
    {result : Except Error Value} {value : Value} :
    result.mapError change = .ok value ↔ result = .ok value := by
  cases result <;> simp [Except.mapError]

variable {upload : UploadFile} {events grown : EventTable}

theorem announceStored_rows {input : UploadInput}
    (announced : announceStored input upload events = .ok grown) :
    grown.rows = events.rows ++
      [(upload.emission "file.stored" (upload.payload (input.url upload.file))).event
        input.now input.eventPk] := by
  unfold announceStored at announced
  split at announced
  · cases announced
  · split at announced
    · cases announced
    · next url found =>
      obtain rfl : input.url upload.file = url := by
        unfold UploadFile.url at found
        split at found <;> cases found
        rfl
      split at announced
      · cases announced
      · exact emitEvent_rows (mapError_eq_ok_iff.mp announced)

theorem announceExpiring_of_unnamed (input : SweepInput) (ttlHours : Int) (events : EventTable)
    (unnamed : upload.file = "") :
    ∃ text, announceExpiring input ttlHours upload events = .error (.valueError text) := by
  rw [announceExpiring, UploadFile.url, if_pos unnamed]
  exact ⟨_, rfl⟩

theorem announceExpiring_of_named (input : SweepInput) (ttlHours : Int)
    (named : upload.file ≠ "") :
    announceExpiring input ttlHours upload events =
      (emitEvent input.now (input.eventPk upload.pk) (upload.emission "file.expiring"
        (upload.payload (input.url upload.file) ++
          [("expires_at", .string (timeStr (upload.createdAt + hours ttlHours)))]))
        events).mapError .database := by
  simp only [announceExpiring, UploadFile.url, if_neg named]

theorem announceExpiring_emitted {input : SweepInput} {ttlHours : Int}
    (announced : announceExpiring input ttlHours upload events = .ok grown) :
    upload.file ≠ "" ∧
      emitEvent input.now (input.eventPk upload.pk) (upload.emission "file.expiring"
        (upload.payload (input.url upload.file) ++
          [("expires_at", .string (timeStr (upload.createdAt + hours ttlHours)))]))
        events = .ok grown := by
  by_cases named : upload.file = ""
  · obtain ⟨text, refused⟩ := announceExpiring_of_unnamed input ttlHours events named
    rw [refused] at announced
    cases announced
  · rw [announceExpiring_of_named input ttlHours named] at announced
    exact ⟨named, mapError_eq_ok_iff.mp announced⟩

theorem announceExpiring_emits {input : SweepInput} {ttlHours : Int}
    (announced : announceExpiring input ttlHours upload events = .ok grown) :
    ∃ payload, emitEvent input.now (input.eventPk upload.pk)
      (upload.emission "file.expiring" payload) events = .ok grown :=
  ⟨_, (announceExpiring_emitted announced).2⟩

theorem announceAll_rows (input : SweepInput) (ttlHours : Int) (uploads : List UploadFile)
    (result : SweepResult) (events : EventTable) :
    ∃ more, (announceAll input ttlHours uploads result events).1.rows = events.rows ++ more ∧
      ∀ event ∈ more, event.eventType = "file.expiring" := by
  induction uploads generalizing result events with
  | nil => exact ⟨[], by simp [announceAll], by simp⟩
  | cons upload rest ih =>
      rw [announceAll]
      split
      · next grown announced =>
        obtain ⟨payload, emitted⟩ := announceExpiring_emits announced
        obtain ⟨more, laterRows, laterExpiring⟩ := ih _ grown
        refine ⟨(upload.emission "file.expiring" payload).event input.now
          (input.eventPk upload.pk) :: more, ?_, List.forall_mem_cons.mpr ⟨rfl, laterExpiring⟩⟩
        rw [laterRows, emitEvent_rows emitted, List.append_assoc, List.singleton_append]
      · exact ih _ events
      · exact ⟨[], by simp, by simp⟩

end Emission

section Creation

variable {input : UploadInput} {state left : UploadState}

theorem createWithBlob_error {content : Bytes} {upload : UploadFile} {error : UploadError}
    (created : createWithBlob input content upload state = (left, .error error)) :
    left.database = state.database := by
  cases stored : state.storage.insert? ⟨input.blobName, content⟩ with
  | none =>
      simp only [createWithBlob, stored] at created
      split_ifs at created <;> cases created <;> rfl
  | some storage =>
      simp only [createWithBlob, stored] at created
      split_ifs at created
      · cases created
        rfl
      · cases created
        rfl
      · split at created <;> cases created
        rfl
      · cases created
        rfl

theorem createWithBlob_ok {content : Bytes} {upload saved : UploadFile}
    (created : createWithBlob input content upload state = (left, .ok saved)) :
    saved = { upload with file := input.blobName } ∧
      state.database.insertFile? saved = some left.database := by
  cases stored : state.storage.insert? ⟨input.blobName, content⟩ with
  | none =>
      simp only [createWithBlob, stored] at created
      split_ifs at created <;> cases created
  | some storage =>
      simp only [createWithBlob, stored] at created
      split_ifs at created
      · cases created
      · cases created
      · split at created <;> cases created
        next inserted => exact ⟨rfl, inserted⟩
      · cases created

theorem storeUpload_database (input : UploadInput) (content : Bytes) (upload : UploadFile)
    (state : UploadState) :
    let database := (storeUpload input content upload state).1.database
    database = state.database ∨
    ∃ (saved : UploadFile) (grown : Database) (events : EventTable),
      saved = { upload with file := input.blobName } ∧
      state.database.insertFile? saved = some grown ∧
      announceStored input saved grown.events = .ok events ∧
      database = { grown with events } := by
  intro database
  simp only [database, storeUpload]
  cases created : createWithBlob input content upload state with
  | mk left result =>
      cases result with
      | error error => exact .inl (createWithBlob_error created)
      | ok saved =>
          obtain ⟨shape, inserted⟩ := createWithBlob_ok created
          cases announced : announceStored input saved left.database.events with
          | error error => exact .inl (by simp only [announced])
          | ok events =>
              by_cases fails : input.fails .commit
              · exact .inl (by simp only [announced, fails, if_true])
              · exact .inr ⟨saved, left.database, events, shape, inserted, announced,
                  by simp only [announced, fails, Bool.false_eq_true, if_false]⟩

theorem createUploadFile_of_valid {settings : Settings} {user : Option Nat}
    {file : UploadedFile} {batch : Option Uuid} {contentType : String} {sizeBytes : Nat}
    (valid : validateFile settings file none = .ok (contentType, sizeBytes)) :
    createUploadFile settings input user file batch state =
      storeUpload input file.content (storedUpload input user (file.seek 0) batch contentType
        sizeBytes (computeSha256 file).1) state := by
  unfold createUploadFile
  rw [valid]
  rfl

theorem createUploadFile_of_invalid {settings : Settings} {user : Option Nat}
    {file : UploadedFile} {batch : Option Uuid} {invalid : ValidationError}
    (rejected : validateFile settings file none = .error invalid) :
    createUploadFile settings input user file batch state =
      createWithBlob input file.content (failedUpload input user file batch invalid) state := by
  unfold createUploadFile
  rw [rejected]

/-- A direct upload changes nothing in the database, or it inserts a FAILED row, or it
inserts a STORED row with its hash and adds its event. -/
theorem createUploadFile_database (settings : Settings) (input : UploadInput)
    (user : Option Nat) (file : UploadedFile) (batch : Option Uuid) (state : UploadState) :
    let database := (createUploadFile settings input user file batch state).1.database
    database = state.database ∨
    (∃ upload : UploadFile, upload.status = .failed ∧
      state.database.insertFile? upload = some database) ∨
    ∃ (upload : UploadFile) (grown : Database) (events : EventTable),
      upload.status = .stored ∧ upload.sha256 = (computeSha256 file).1 ∧
      state.database.insertFile? upload = some grown ∧
      announceStored input upload grown.events = .ok events ∧
      database = { grown with events } := by
  intro database
  cases outcome : validateFile settings file none with
  | error invalid =>
      simp only [database, createUploadFile_of_invalid outcome]
      cases created : createWithBlob input file.content
          (failedUpload input user file batch invalid) state with
      | mk left result =>
          cases result with
          | error error => exact .inl (createWithBlob_error created)
          | ok saved =>
              obtain ⟨shape, inserted⟩ := createWithBlob_ok created
              exact .inr (.inl ⟨saved, by rw [shape]; rfl, inserted⟩)
  | ok valid =>
      simp only [database, createUploadFile_of_valid outcome]
      have stored := storeUpload_database input file.content
        (storedUpload input user (file.seek 0) batch valid.1 valid.2 (computeSha256 file).1) state
      rcases stored with same | changed
      · exact .inl same
      · obtain ⟨saved, grown, events, shape, inserted, announced, result⟩ := changed
        exact .inr (.inr ⟨saved, grown, events, by rw [shape]; rfl, by rw [shape]; rfl, inserted,
          announced, result⟩)

end Creation

end Doorito.Portal
