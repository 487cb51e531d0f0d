import Doorito.Common.Outbox
import Doorito.Foundation.Sha256
import Doorito.Portal.Models

/-! Uploads in one request and the sweep that announces expiry
(`portal/services/uploads.py`). Storage is no part of the database: a transaction that is
rolled back leaves there what it has saved. -/

set_option autoImplicit false

namespace Doorito.Portal

open Foundation Common

/-! ## Files, settings and storage -/

/-- A Django `UploadedFile`, given by the pieces in which `file.chunks` yields it. -/
structure UploadedFile where
  name : String
  chunks : List Bytes
  position : Nat

namespace UploadedFile

def content (file : UploadedFile) : Bytes := file.chunks.flatten

def size (file : UploadedFile) : Nat := file.content.length

def seek (file : UploadedFile) (position : Nat) : UploadedFile := { file with position }

end UploadedFile

/-- The settings of the portal, and `mimetypes.guess_type`, whose table comes from the
system. -/
structure Settings where
  maxSize : Nat := 52428800
  allowedTypes : Option (List String) := none
  ttlHours : Int := 24
  notifyHours : Int := 1
  guessType : String → Option String

structure Blob where
  name : String
  content : Bytes

abbrev Storage := Table Blob.name

structure UploadState where
  database : Database
  storage : Storage

namespace UploadState

def empty : UploadState := ⟨.empty, .empty⟩

end UploadState

/-! ## Validation and hashing -/

structure ValidationError where
  message : String
  code : String
deriving DecidableEq, Repr

def validateFile (settings : Settings) (file : UploadedFile) (maxSize : Option Nat) :
    Except ValidationError (String × Nat) :=
  let maxSize :=
    match maxSize with
    | none | some 0 => settings.maxSize
    | some size => size
  let sizeBytes := file.size
  if maxSize < sizeBytes then
    .error ⟨"File size " ++ toString sizeBytes ++ " bytes exceeds maximum of " ++
      toString maxSize ++ " bytes.", "file_too_large"⟩
  else
    let contentType := (settings.guessType file.name).getD "application/octet-stream"
    match settings.allowedTypes with
    | none => .ok (contentType, sizeBytes)
    | some allowedTypes =>
        if contentType ∈ allowedTypes then .ok (contentType, sizeBytes)
        else
          .error ⟨"File type '" ++ contentType ++ "' is not allowed. Allowed types: " ++
            ", ".intercalate allowedTypes, "file_type_not_allowed"⟩

/-- The hash, and the file at its start again. -/
def computeSha256 (file : UploadedFile) : String × UploadedFile :=
  let file := file.seek 0
  let hasher := file.chunks.foldl Sha256.Hasher.update .new
  (hasher.hexdigest, file.seek 0)

/-! ## The direct upload -/

/-- The places where something outside this code can raise. -/
inductive UploadStage where
  | saveBlob
  | insertFile
  | fileUrl
  | insertEvent
  | commit
deriving DecidableEq, Repr

inductive UploadError where
  | raised (stage : UploadStage)
  | nameTaken
  | valueError (message : String)
  | database (error : DbError)
deriving DecidableEq, Repr

/-- What a call of `create_upload_file` is given by the world: a clock reading, the keys
of its rows, the name that storage chooses, the address of a blob, and where it fails. -/
structure UploadInput where
  now : Time
  pk : Uuid
  eventPk : Uuid
  blobName : String
  url : String → String
  fails : UploadStage → Bool

def UploadFile.fitsColumns (upload : UploadFile) : Bool :=
  upload.file.length ≤ 100 && upload.originalFilename.length ≤ 255 &&
    upload.contentType.length ≤ 100 && upload.sizeBytes ≤ positiveBigIntegerMax &&
    upload.sha256.length ≤ 64

/-- `UploadFile.objects.create(file=file, ..)`: the blob goes to storage before the row
is inserted. -/
def createWithBlob (input : UploadInput) (content : Bytes) (upload : UploadFile)
    (state : UploadState) : UploadState × Except UploadError UploadFile :=
  if input.fails .saveBlob then (state, .error (.raised .saveBlob))
  else
    match state.storage.insert? ⟨input.blobName, content⟩ with
    | none => (state, .error .nameTaken)
    | some storage =>
        let saved := { state with storage }
        let upload := { upload with file := input.blobName }
        if input.fails .insertFile then (saved, .error (.raised .insertFile))
        else if upload.fitsColumns then
          match state.database.insertFile? upload with
          | some grown => ({ saved with database := grown }, .ok upload)
          | none => (saved, .error (.database .integrityError))
        else (saved, .error (.database .dataError))

def UploadFile.payload (upload : UploadFile) (url : String) : List (String × Json) :=
  [("file_id", .string upload.pk.str), ("original_filename", .string upload.originalFilename),
    ("content_type", .string upload.contentType), ("size_bytes", .number upload.sizeBytes 0),
    ("sha256", .string upload.sha256), ("url", .string url)]

def UploadFile.emission (upload : UploadFile) (eventType : String)
    (payload : List (String × Json)) : EmitArguments :=
  { aggregateType := "UploadFile"
    aggregateId := upload.pk.str
    eventType
    payload := some (.object payload)
    idempotencyKey := none }

/-- `upload.file.url`. -/
def UploadFile.url (upload : UploadFile) (url : String → String) : Except UploadError String :=
  if upload.file = "" then
    .error (.valueError "The 'file' attribute has no file associated with it.")
  else .ok (url upload.file)

def announceStored (input : UploadInput) (upload : UploadFile) (events : EventTable) :
    Except UploadError EventTable :=
  if input.fails .fileUrl then .error (.raised .fileUrl)
  else
    match upload.url input.url with
    | .error error => .error error
    | .ok url =>
        if input.fails .insertEvent then .error (.raised .insertEvent)
        else
          (emitEvent input.now input.eventPk (upload.emission "file.stored" (upload.payload url))
            events).mapError .database

def failedUpload (input : UploadInput) (user : Option Nat) (file : UploadedFile)
    (batch : Option Uuid) (invalid : ValidationError) : UploadFile :=
  { pk := input.pk
    batch
    uploadedBy := user
    file := ""
    originalFilename := file.name
    contentType := "unknown"
    sizeBytes := file.size
    sha256 := ""
    status := .failed
    errorMessage := invalid.message
    createdAt := input.now
    updatedAt := input.now }

def storedUpload (input : UploadInput) (user : Option Nat) (file : UploadedFile)
    (batch : Option Uuid) (contentType : String) (sizeBytes : Nat) (sha256 : String) :
    UploadFile :=
  { pk := input.pk
    batch
    uploadedBy := user
    file := ""
    originalFilename := file.name
    contentType
    sizeBytes
    sha256
    status := .stored
    errorMessage := ""
    createdAt := input.now
    updatedAt := input.now }

/-- The transaction of a valid file. Rolling it back restores the database and not the
storage. -/
def storeUpload (input : UploadInput) (content : Bytes) (upload : UploadFile)
    (state : UploadState) : UploadState × Except UploadError UploadFile :=
  match createWithBlob input content upload state with
  | (saved, .error error) => (saved, .error error)
  | (saved, .ok upload) =>
      let rolledBack := { saved with database := state.database }
      match announceStored input upload saved.database.events with
      | .error error => (rolledBack, .error error)
      | .ok events =>
          if input.fails .commit then (rolledBack, .error (.raised .commit))
          else ({ saved with database := { saved.database with events } }, .ok upload)

def createUploadFile (settings : Settings) (input : UploadInput) (user : Option Nat)
    (file : UploadedFile) (batch : Option Uuid) (state : UploadState) :
    UploadState × Except UploadError UploadFile :=
  match validateFile settings file none with
  | .error invalid =>
      createWithBlob input file.content (failedUpload input user file batch invalid) state
  | .ok (contentType, sizeBytes) =>
      let (sha256, file) := computeSha256 file
      storeUpload input file.content
        (storedUpload input user file batch contentType sizeBytes sha256) state

/-! ## Failure -/

/-- The columns that `mark_file_failed` writes. -/
def UploadFile.markFailed (now : Time) (error : String) (upload : UploadFile) : UploadFile :=
  { upload with
    status := .failed
    errorMessage := error
    updatedAt := now }

@[simp] theorem UploadFile.pk_markFailed (now : Time) (error : String) (upload : UploadFile) :
    (upload.markFailed now error).pk = upload.pk := rfl

@[simp] theorem UploadFile.batch_markFailed (now : Time) (error : String)
    (upload : UploadFile) : (upload.markFailed now error).batch = upload.batch := rfl

def markFileFailed (now : Time) (file : Uuid) (error : String) (database : Database) :
    Except DbError Database :=
  if file ∈ database.files.keys then
    .ok (database.updateFiles (·.pk = file) (·.markFailed now error)
      (UploadFile.pk_markFailed now error) (UploadFile.batch_markFailed now error))
  else .error .databaseError

/-! ## The expiry sweep -/

/-- What a run of the sweep is given by the world: a clock reading, the order of files
created at one time, a key for each event, and the address of a blob. -/
structure SweepInput where
  now : Time
  order : RowOrder UploadFile
  eventPk : Uuid → Uuid
  url : String → String

structure SweepResult where
  notified : Nat
  skipped : Nat
deriving DecidableEq, Repr

def UploadFile.isExpiring (cutoff : Time) (upload : UploadFile) : Bool :=
  upload.status = .stored ∧ upload.createdAt < cutoff

def announceExpiring (input : SweepInput) (ttlHours : Int) (upload : UploadFile)
    (events : EventTable) : Except UploadError EventTable :=
  match upload.url input.url with
  | .error error => .error error
  | .ok url =>
      let expiresAt := timeStr (upload.createdAt + hours ttlHours)
      (emitEvent input.now (input.eventPk upload.pk)
        (upload.emission "file.expiring" (upload.payload url ++ [("expires_at", .string expiresAt)]))
        events).mapError .database

/-- The loop over the files; what it has emitted stays when a file raises. -/
def announceAll (input : SweepInput) (ttlHours : Int) :
    List UploadFile → SweepResult → EventTable → EventTable × Except UploadError SweepResult
  | [], result, events => (events, .ok result)
  | upload :: rest, result, events =>
      match announceExpiring input ttlHours upload events with
      | .ok grown =>
          announceAll input ttlHours rest { result with notified := result.notified + 1 } grown
      | .error (.database .integrityError) =>
          announceAll input ttlHours rest { result with skipped := result.skipped + 1 } events
      | .error error => (events, .error error)

def notifyExpiringFiles (settings : Settings) (input : SweepInput)
    (ttlHours notifyHours : Option Int) (database : Database) :
    Database × Except UploadError SweepResult :=
  let ttlHours := ttlHours.getD settings.ttlHours
  let notifyHours := notifyHours.getD settings.notifyHours
  let cutoff := input.now - hours (ttlHours - notifyHours)
  let expiring := input.order.arrange (database.files.rows.filter (·.isExpiring cutoff))
  let (events, result) := announceAll input ttlHours expiring ⟨0, 0⟩ database.events
  ({ database with events }, result)

end Doorito.Portal
