import Doorito.Portal.SessionWorld
import Doorito.Portal.Tasks

/-! `complete_upload_session` statement by statement, among the statements of other calls. A
statement sees what has been committed. A row that a transaction has written stays locked until
the transaction ends: until then others see it as it was, and whoever wants to write it waits. -/

set_option autoImplicit false

namespace Doorito.Portal

open Foundation Common

/-! ## Whole calls -/

/-- The calls on sessions and their files, of which `record_upload_part` is in its two
statements and `complete_upload_session` is in one step. -/
inductive SessionCall where
  | session (action : SessionAction)
  | markFileFailed (now : Time) (file : Uuid) (error : String)
  | deleteFiles (pks : List Uuid)

def sessionCalls : Machine SessionWorld SessionCall where
  step world
    | .session action => chunkedUploads.step world action
    | .markFileFailed now file error =>
        match markFileFailed now file error world.database with
        | .ok marked => some { world with database := marked }
        | .error _ => some world
    | .deleteFiles pks => some { world with database := world.database.deleteFiles pks }

/-! ## Statements -/

/-- Where a run of `complete_upload_session` stands, with the session as it has read it. -/
inductive CompletionPhase where
  | refreshed (session : UploadSession)
  | counted (session : UploadSession)
  | saved (now : Time) (session : UploadSession)
  | updated (now : Time) (session : UploadSession) (stores : Bool)
  | ended

namespace CompletionPhase

/-- The session that the run has written and locked. -/
def savedSession? : CompletionPhase → Option UploadSession
  | .saved _ session | .updated _ session _ => some session
  | .refreshed _ | .counted _ | .ended => none

/-- The file that the run has written and locked. The update leaves a file alone that is not
UPLOADING. -/
def storedFile? : CompletionPhase → Option Uuid
  | .updated _ session true => some session.file
  | .updated _ _ false | .refreshed _ | .counted _ | .saved _ _ | .ended => none

end CompletionPhase

/-- What has been committed, and the runs of `complete_upload_session` in the order of their
first statements. -/
structure StatementWorld where
  committed : SessionWorld
  completions : List CompletionPhase

namespace StatementWorld

def init (database : Database) : StatementWorld := ⟨.init database, []⟩

def sessionLocked (world : StatementWorld) (session : Uuid) : Bool :=
  world.completions.any fun phase => phase.savedSession?.any (·.pk = session)

def fileLocked (world : StatementWorld) (file : Uuid) : Bool :=
  world.completions.any fun phase => phase.storedFile? = some file

/-- A completion has locked one of the files, or the session of one. -/
def anyLocked (world : StatementWorld) (pks : List Uuid) : Bool :=
  world.completions.any fun phase => phase.savedSession?.any (·.file ∈ pks)

def call (world : StatementWorld) (call : SessionCall) : Option StatementWorld :=
  (sessionCalls.step world.committed call).map fun committed => { world with committed }

def setPhase (world : StatementWorld) (completion : Nat) (phase : CompletionPhase) :
    StatementWorld :=
  { world with completions := world.completions.set completion phase }

end StatementWorld

def Database.isUploading (database : Database) (file : Uuid) : Bool :=
  database.files.rows.any fun row => row.pk = file ∧ row.status = .uploading

/-- The rows that a completion has written, when it commits. -/
def Database.commitCompletion (now : Time) (session file : Uuid) (stores : Bool)
    (database : Database) : Database :=
  (database.updateSessions (·.pk = session) (·.completed now)
      (UploadSession.pk_completed now) (UploadSession.file_completed now)).updateFiles
    (fun row => row.pk = file ∧ stores) UploadFile.store UploadFile.pk_store
    UploadFile.batch_store

inductive StatementAction where
  | insertPart (now : Time) (session : Uuid) (arguments : PartArguments)
  | countPart (call : Nat)
  | markFileFailed (now : Time) (file : Uuid) (error : String)
  | deleteFiles (pks : List Uuid)
  | refresh (session : Uuid)
  | count (completion : Nat)
  | save (completion : Nat) (now : Time)
  | updateFile (completion : Nat)
  | commit (completion : Nat)
  /-- The transaction is rolled back, by an exception or with its connection. -/
  | rollback (completion : Nat)

/-- A statement that waits for a lock is not enabled. -/
def statements : Machine StatementWorld StatementAction where
  step world
    | .insertPart now session arguments => world.call (.session (.insertPart now session arguments))
    | .countPart number =>
        match world.committed.calls[number]? with
        | some (some record) =>
            if world.sessionLocked record.session then none
            else world.call (.session (.countPart number))
        | _ => none
    | .markFileFailed now file error =>
        if world.fileLocked file then none else world.call (.markFileFailed now file error)
    | .deleteFiles pks => if world.anyLocked pks then none else world.call (.deleteFiles pks)
    | .refresh session =>
        match world.committed.database.sessions.get? session with
        | none => some { world with completions := world.completions ++ [.ended] }
        | some row => some { world with completions := world.completions ++ [.refreshed row] }
    | .count completion =>
        match world.completions[completion]? with
        | some (.refreshed row) =>
            if world.committed.database.receivedCount row.pk < row.totalParts then
              some (world.setPhase completion .ended)
            else some (world.setPhase completion (.counted row))
        | _ => none
    | .save completion now =>
        match world.completions[completion]? with
        | some (.counted row) =>
            if world.sessionLocked row.pk then none
            -- A save that finds no row to update raises.
            else if row.pk ∈ world.committed.database.sessions.keys then
              some (world.setPhase completion (.saved now row))
            else some (world.setPhase completion .ended)
        | _ => none
    | .updateFile completion =>
        match world.completions[completion]? with
        | some (.saved now row) =>
            if world.fileLocked row.file then none
            else some (world.setPhase completion
              (.updated now row (world.committed.database.isUploading row.file)))
        | _ => none
    | .commit completion =>
        match world.completions[completion]? with
        | some (.updated now row stores) =>
            some
              { committed :=
                  { world.committed with
                    database :=
                      world.committed.database.commitCompletion now row.pk row.file stores }
                completions := world.completions.set completion .ended }
        | _ => none
    | .rollback completion =>
        match world.completions[completion]? with
        | none | some .ended => none
        | some _ => some (world.setPhase completion .ended)

end Doorito.Portal
