import Doorito.Portal.Batches
import Doorito.Portal.Uploads

/-! The upload page (`frontend/views/upload.py`). A request creates a batch, then each of its
files, and finalizes the batch; every one of these calls commits for itself. -/

set_option autoImplicit false

namespace Doorito.Frontend

open Foundation Common Portal

def maxFilesPerRequest : Nat := 10

inductive Method where
  | get
  | post
  | other
deriving DecidableEq, Repr

/-- A file of the request, with what the world gives the call that stores it. -/
structure SubmittedFile where
  file : UploadedFile
  input : UploadInput

/-- What the world gives the calls for the batch: clock readings, its key, and whether the
database fails them. -/
structure BatchInput where
  createdAt : Time
  pk : Uuid
  createFails : Option DbError
  finalizedAt : Time
  finalizeFails : Option DbError

structure UploadRequest where
  user : Option Nat
  method : Method
  htmx : Bool
  files : List SubmittedFile
  batch : BatchInput

inductive Level where
  | success
  | warning
  | error
deriving DecidableEq, Repr

inductive UploadAnswer where
  | loginRedirect
  | methodNotAllowed
  | page
  | errorPartial (error : String)
  | resultsPartial (results : List UploadFile) (storedCount failedCount : Nat)
  | redirect (level : Level) (message : String)

/-- The answer to a request that uploads nothing. -/
def errorAnswer (htmx : Bool) (error : String) : UploadAnswer :=
  if htmx then .errorPartial error else .redirect .error error

/-- The answer to a request whose files have all been processed. -/
def resultsAnswer (htmx : Bool) (results : List UploadFile) : UploadAnswer :=
  let storedCount := results.countP (·.status = .stored)
  let failedCount := results.countP (·.status = .failed)
  if htmx then .resultsPartial results storedCount failedCount
  else if failedCount = 0 then
    .redirect .success ("Uploaded " ++ toString storedCount ++ " file(s) successfully.")
  else if storedCount > 0 then
    .redirect .warning ("Uploaded " ++ toString storedCount ++ " file(s), " ++
      toString failedCount ++ " failed.")
  else .redirect .error ("All " ++ toString failedCount ++ " file(s) failed to upload.")

/-- The loop over the files; what it has created stays when a file raises. -/
def createFiles (settings : Settings) (user : Option Nat) (batch : Uuid) :
    List SubmittedFile → UploadState → UploadState × Except UploadError (List UploadFile)
  | [], state => (state, .ok [])
  | submitted :: rest, state =>
      match createUploadFile settings submitted.input user submitted.file (some batch) state with
      | (left, .error error) => (left, .error error)
      | (left, .ok upload) =>
          let (last, results) := createFiles settings user batch rest left
          (last, results.map (upload :: ·))

/-- The calls for a request whose files have been counted. -/
def uploadBatch (settings : Settings) (request : UploadRequest) (state : UploadState) :
    UploadState × Except UploadError (List UploadFile) :=
  match request.batch.createFails with
  | some error => (state, .error (.database error))
  | none =>
      match createBatch request.batch.createdAt request.batch.pk request.user "" state.database with
      | .error error => (state, .error (.database error))
      | .ok database =>
          match createFiles settings request.user request.batch.pk request.files
              { state with database } with
          | (left, .error error) => (left, .error error)
          | (left, .ok results) =>
              match request.batch.finalizeFails with
              | some error => (left, .error (.database error))
              | none =>
                  match finalizeBatch request.batch.finalizedAt request.batch.pk left.database with
                  | .error error => (left, .error (.database error))
                  | .ok database => ({ left with database }, .ok results)

def uploadView (settings : Settings) (request : UploadRequest) (state : UploadState) :
    UploadState × Except UploadError UploadAnswer :=
  match request.user, request.method with
  | none, _ => (state, .ok .loginRedirect)
  | some _, .other => (state, .ok .methodNotAllowed)
  | some _, .get => (state, .ok .page)
  | some _, .post =>
      if request.files = [] then (state, .ok (errorAnswer request.htmx "No files selected."))
      else if request.files.length > maxFilesPerRequest then
        (state, .ok (errorAnswer request.htmx ("Too many files. Maximum " ++
          toString maxFilesPerRequest ++ " files per upload.")))
      else
        let (left, results) := uploadBatch settings request state
        (left, results.map (resultsAnswer request.htmx))

end Doorito.Frontend
