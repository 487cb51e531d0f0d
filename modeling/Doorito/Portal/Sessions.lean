import Doorito.Portal.Models
import Doorito.Foundation.Rounding

/-! Sessions of chunked uploads (`portal/services/sessions.py`). Recording a part is two
statements without a transaction around them, so each of them is an operation here. -/

set_option autoImplicit false

namespace Doorito.Portal

open Foundation Common

inductive SessionError where
  | zeroDivisionError
  | doesNotExist
  | valueError (message : String)
  | database (error : DbError)
deriving DecidableEq, Repr

def defaultChunkSizeBytes : Nat := 5242880

/-- `math.ceil(total_size_bytes / chunk_size_bytes)`: true division rounds the quotient
to a significand of 53 bits. -/
def totalParts (totalSizeBytes chunkSizeBytes : Nat) : Nat :=
  ⌈roundSignificand 53 ((totalSizeBytes : ℚ) / chunkSizeBytes)⌉.toNat

def newSession (now : Time) (pk file : Uuid) (totalSizeBytes chunkSizeBytes : Nat) :
    UploadSession :=
  { pk
    file
    status := .init
    chunkSizeBytes
    totalSizeBytes
    totalParts := totalParts totalSizeBytes chunkSizeBytes
    bytesReceived := 0
    completedParts := 0
    createdAt := now
    updatedAt := now }

def UploadSession.fitsColumns (session : UploadSession) : Bool :=
  session.chunkSizeBytes ≤ positiveIntegerMax && session.totalSizeBytes ≤ positiveBigIntegerMax &&
    session.totalParts ≤ positiveIntegerMax

def createUploadSession (now : Time) (pk file : Uuid) (totalSizeBytes : Nat)
    (chunkSizeBytes : Option Nat) (database : Database) : Except SessionError Database :=
  let chunkSizeBytes := chunkSizeBytes.getD defaultChunkSizeBytes
  if chunkSizeBytes = 0 then .error .zeroDivisionError
  else
    let session := newSession now pk file totalSizeBytes chunkSizeBytes
    if session.fitsColumns then
      match database.insertSession? session with
      | some grown => .ok grown
      | none => .error (.database .integrityError)
    else .error (.database .dataError)

/-- The arguments of `record_upload_part` other than the session. -/
structure PartArguments where
  partNumber : Nat
  offsetBytes : Nat
  sizeBytes : Nat
  sha256 : String
deriving DecidableEq, Repr

def PartArguments.fitsColumns (arguments : PartArguments) : Bool :=
  arguments.partNumber ≤ positiveIntegerMax && arguments.offsetBytes ≤ positiveBigIntegerMax &&
    arguments.sizeBytes ≤ positiveBigIntegerMax && arguments.sha256.length ≤ 64

def PartArguments.part (arguments : PartArguments) (now : Time) (session : Uuid) :
    UploadPart :=
  { session
    partNumber := arguments.partNumber
    offsetBytes := arguments.offsetBytes
    sizeBytes := arguments.sizeBytes
    sha256 := arguments.sha256
    status := .received
    createdAt := now
    updatedAt := now }

/-- The first statement of `record_upload_part`. -/
def insertPart (now : Time) (session : Uuid) (arguments : PartArguments)
    (database : Database) : Except SessionError Database :=
  if arguments.fitsColumns then
    match database.insertPart? (arguments.part now session) with
    | some grown => .ok grown
    | none => .error (.database .integrityError)
  else .error (.database .dataError)

/-- The columns that the second statement of `record_upload_part` writes. -/
def UploadSession.counted (session : UploadSession) (sizeBytes : Nat) : UploadSession :=
  { session with
    completedParts := session.completedParts + 1
    bytesReceived := session.bytesReceived + sizeBytes
    status := .inProgress }

def UploadSession.countFits (session : UploadSession) (sizeBytes : Nat) : Bool :=
  session.completedParts + 1 ≤ positiveIntegerMax &&
    session.bytesReceived + sizeBytes ≤ positiveBigIntegerMax

@[simp] theorem UploadSession.pk_counted (sizeBytes : Nat) (session : UploadSession) :
    (session.counted sizeBytes).pk = session.pk := rfl

@[simp] theorem UploadSession.file_counted (sizeBytes : Nat) (session : UploadSession) :
    (session.counted sizeBytes).file = session.file := rfl

def Database.writeCount (session : Uuid) (sizeBytes : Nat) (database : Database) : Database :=
  database.updateSessions (·.pk = session) (·.counted sizeBytes)
    (UploadSession.pk_counted sizeBytes) (UploadSession.file_counted sizeBytes)

/-- The second statement of `record_upload_part`. -/
def countPart (session : Uuid) (sizeBytes : Nat) (database : Database) :
    Except SessionError Database :=
  if database.sessions.rows.all fun row => row.pk ≠ session || row.countFits sizeBytes then
    .ok (database.writeCount session sizeBytes)
  else .error (.database .dataError)

/-- A call during which nobody else writes. The first statement has committed when the
second one fails. -/
def recordUploadPart (now : Time) (session : Uuid) (arguments : PartArguments)
    (database : Database) : Database × Except SessionError UploadPart :=
  match insertPart now session arguments database with
  | .error error => (database, .error error)
  | .ok inserted =>
      match countPart session arguments.sizeBytes inserted with
      | .error error => (inserted, .error error)
      | .ok counted => (counted, .ok (arguments.part now session))

def UploadSession.completed (now : Time) (session : UploadSession) : UploadSession :=
  { session with
    status := .complete
    updatedAt := now }

@[simp] theorem UploadSession.pk_completed (now : Time) (session : UploadSession) :
    (session.completed now).pk = session.pk := rfl

@[simp] theorem UploadSession.file_completed (now : Time) (session : UploadSession) :
    (session.completed now).file = session.file := rfl

def UploadFile.store (file : UploadFile) : UploadFile := { file with status := .stored }

@[simp] theorem UploadFile.pk_store (file : UploadFile) : file.store.pk = file.pk := rfl

@[simp] theorem UploadFile.batch_store (file : UploadFile) : file.store.batch = file.batch := rfl

/-- The two writes of `complete_upload_session`; a file that is not UPLOADING keeps its
status. -/
def Database.writeCompletion (now : Time) (session file : Uuid) (database : Database) :
    Database :=
  (database.updateSessions (·.pk = session) (·.completed now)
      (UploadSession.pk_completed now) (UploadSession.file_completed now)).updateFiles
    (fun row => row.pk = file ∧ row.status = .uploading) UploadFile.store UploadFile.pk_store
    UploadFile.batch_store

def completeUploadSession (now : Time) (session : Uuid) (database : Database) :
    Except SessionError Database :=
  match database.sessions.get? session with
  | none => .error .doesNotExist
  | some row =>
      let receivedCount := database.receivedCount session
      if receivedCount < row.totalParts then
        .error (.valueError ("Cannot complete session " ++ session.str ++ ": received " ++
          toString receivedCount ++ " of " ++ toString row.totalParts ++ " parts."))
      else
        .ok (database.writeCompletion now session row.file)

end Doorito.Portal
