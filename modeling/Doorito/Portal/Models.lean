import Doorito.Common.Models

/-! Rows of the portal app (`portal/models.py`) and the database that holds them. The
foreign keys of sessions and parts are fields of the database, so no operation can leave
a session without its file or a part without its session. -/

set_option autoImplicit false

namespace Doorito.Portal

open Foundation Common

def positiveBigIntegerMax : Nat := 2 ^ 63 - 1

inductive UploadBatch.Status where
  | init
  | inProgress
  | complete
  | partlyStored
  | failed
deriving DecidableEq, Repr

structure UploadBatch where
  pk : Uuid
  createdBy : Option Nat
  status : UploadBatch.Status
  idempotencyKey : String
  createdAt : Time
  updatedAt : Time

inductive UploadFile.Status where
  | uploading
  | stored
  | failed
deriving DecidableEq, Repr

structure UploadFile where
  pk : Uuid
  batch : Option Uuid
  uploadedBy : Option Nat
  file : String
  originalFilename : String
  contentType : String
  sizeBytes : Nat
  sha256 : String
  status : UploadFile.Status
  errorMessage : String
  createdAt : Time
  updatedAt : Time

inductive UploadSession.Status where
  | init
  | inProgress
  | complete
  | failed
  | aborted
deriving DecidableEq, Repr

structure UploadSession where
  pk : Uuid
  file : Uuid
  status : UploadSession.Status
  chunkSizeBytes : Nat
  totalSizeBytes : Nat
  totalParts : Nat
  bytesReceived : Nat
  completedParts : Nat
  createdAt : Time
  updatedAt : Time

inductive UploadPart.Status where
  | pending
  | received
  | failed
deriving DecidableEq, Repr

structure UploadPart where
  session : Uuid
  partNumber : Nat
  offsetBytes : Nat
  sizeBytes : Nat
  sha256 : String
  status : UploadPart.Status
  createdAt : Time
  updatedAt : Time

/-- The columns of the constraint `unique_session_part_number`. -/
def UploadPart.key (part : UploadPart) : Uuid × Nat := (part.session, part.partNumber)

abbrev BatchTable := Table UploadBatch.pk

abbrev FileTable := Table UploadFile.pk

abbrev SessionTable := Table UploadSession.pk

abbrev PartTable := Table UploadPart.key

structure Database where
  batches : BatchTable
  files : FileTable
  sessions : SessionTable
  parts : PartTable
  events : EventTable
  fileBatch : ∀ file ∈ files.rows, ∀ batch ∈ file.batch, batch ∈ batches.keys
  sessionFile : ∀ session ∈ sessions.rows, session.file ∈ files.keys
  partSession : ∀ part ∈ parts.rows, part.session ∈ sessions.keys

namespace Database

def empty : Database where
  batches := .empty
  files := .empty
  sessions := .empty
  parts := .empty
  events := .empty
  fileBatch := by
    intro file none
    cases none
  sessionFile := by
    intro session none
    cases none
  partSession := by
    intro part none
    cases none

def partsOf (database : Database) (session : Uuid) : List UploadPart :=
  database.parts.rows.filter fun part => part.session = session

/-- `session.parts.filter(status=RECEIVED).count()`. -/
def receivedCount (database : Database) (session : Uuid) : Nat :=
  (database.partsOf session).countP fun part => part.status = .received

def insertFile? (database : Database) (file : UploadFile) : Option Database :=
  if fresh : file.pk ∉ database.files.keys then
    if known : ∀ batch ∈ file.batch, batch ∈ database.batches.keys then
      some { database with
        files := database.files.append file fresh
        fileBatch := by
          intro other member
          rcases List.mem_append.mp member with old | new
          · exact database.fileBatch other old
          · rw [List.mem_singleton.mp new]
            exact known
        sessionFile := by
          intro session member
          rw [Table.keys_append]
          exact List.mem_append_left _ (database.sessionFile session member) }
    else none
  else none

def updateFiles (database : Database) (condition : UploadFile → Bool)
    (change : UploadFile → UploadFile) (keeps : ∀ file, (change file).pk = file.pk)
    (keepsBatch : ∀ file, (change file).batch = file.batch) : Database :=
  { database with
    files := database.files.updateWhere condition change keeps
    fileBatch := by
      intro file member
      obtain ⟨old, oldMember, shape⟩ := Table.mem_updateWhere.mp member
      have same : file.batch = old.batch := by
        rw [← shape]
        split
        · exact keepsBatch old
        · rfl
      rw [same]
      exact database.fileBatch old oldMember
    sessionFile := by
      intro session member
      rw [Table.keys_updateWhere]
      exact database.sessionFile session member }

/-- A session of a file that exists and has no session yet. -/
def insertSession? (database : Database) (session : UploadSession) : Option Database :=
  if fresh : session.pk ∉ database.sessions.keys then
    if known : session.file ∈ database.files.keys then
      if session.file ∈ database.sessions.rows.map (·.file) then none
      else
        some { database with
          sessions := database.sessions.append session fresh
          sessionFile := by
            intro other member
            rcases List.mem_append.mp member with old | new
            · exact database.sessionFile other old
            · rw [List.mem_singleton.mp new]
              exact known
          partSession := by
            intro part member
            rw [Table.keys_append]
            exact List.mem_append_left _ (database.partSession part member) }
    else none
  else none

def updateSessions (database : Database) (condition : UploadSession → Bool)
    (change : UploadSession → UploadSession) (keeps : ∀ session, (change session).pk = session.pk)
    (keepsFile : ∀ session, (change session).file = session.file) : Database :=
  { database with
    sessions := database.sessions.updateWhere condition change keeps
    sessionFile := by
      intro session member
      obtain ⟨old, oldMember, shape⟩ := Table.mem_updateWhere.mp member
      have same : session.file = old.file := by
        rw [← shape]
        split
        · exact keepsFile old
        · rfl
      rw [same]
      exact database.sessionFile old oldMember
    partSession := by
      intro part member
      rw [Table.keys_updateWhere]
      exact database.partSession part member }

def insertPart? (database : Database) (part : UploadPart) : Option Database :=
  if fresh : part.key ∉ database.parts.keys then
    if known : part.session ∈ database.sessions.keys then
      some { database with
        parts := database.parts.append part fresh
        partSession := by
          intro other member
          rcases List.mem_append.mp member with old | new
          · exact database.partSession other old
          · rw [List.mem_singleton.mp new]
            exact known }
    else none
  else none

section Laws

variable {database grown : Database}

theorem mem_partsOf {session : Uuid} {part : UploadPart} :
    part ∈ database.partsOf session ↔ part ∈ database.parts.rows ∧ part.session = session := by
  simp [partsOf]

theorem insertFile?_eq_some {file : UploadFile}
    (inserted : database.insertFile? file = some grown) :
    file.pk ∉ database.files.keys ∧ grown.files.rows = database.files.rows ++ [file] ∧
      grown.batches = database.batches ∧ grown.sessions = database.sessions ∧
      grown.parts = database.parts ∧ grown.events = database.events := by
  unfold insertFile? at inserted
  split at inserted
  · next fresh =>
    split at inserted <;> cases inserted
    exact ⟨fresh, rfl, rfl, rfl, rfl, rfl⟩
  · cases inserted

theorem insertSession?_eq_some {session : UploadSession}
    (inserted : database.insertSession? session = some grown) :
    session.pk ∉ database.sessions.keys ∧ session.file ∈ database.files.keys ∧
      grown.batches = database.batches ∧ grown.files = database.files ∧
      grown.sessions.rows = database.sessions.rows ++ [session] ∧
      grown.parts = database.parts ∧ grown.events = database.events := by
  unfold insertSession? at inserted
  split at inserted
  · next fresh =>
    split at inserted
    · next known =>
      split at inserted <;> cases inserted
      exact ⟨fresh, known, rfl, rfl, rfl, rfl, rfl⟩
    · cases inserted
  · cases inserted

theorem insertPart?_eq_some {part : UploadPart}
    (inserted : database.insertPart? part = some grown) :
    part.key ∉ database.parts.keys ∧ part.session ∈ database.sessions.keys ∧
      grown.batches = database.batches ∧ grown.files = database.files ∧
      grown.sessions = database.sessions ∧ grown.parts.rows = database.parts.rows ++ [part] ∧
      grown.events = database.events := by
  unfold insertPart? at inserted
  split at inserted
  · next fresh =>
    split at inserted <;> cases inserted
    next known => exact ⟨fresh, known, rfl, rfl, rfl, rfl, rfl⟩
  · cases inserted

end Laws

end Database

/-! ## Sample values -/

namespace Sample

def uuid (int : Nat) : Uuid := ⟨int % 2 ^ 128, Nat.mod_lt int (Nat.two_pow_pos 128)⟩

def file : UploadFile :=
  { pk := uuid 0
    batch := none
    uploadedBy := none
    file := ""
    originalFilename := "report.csv"
    contentType := "text/csv"
    sizeBytes := 500
    sha256 := ""
    status := .uploading
    errorMessage := ""
    createdAt := 0
    updatedAt := 0 }

def fileStarted : Database :=
  { Database.empty with
    files := ⟨[file], by decide⟩
    fileBatch := by decide
    sessionFile := by decide }

end Sample

end Doorito.Portal
