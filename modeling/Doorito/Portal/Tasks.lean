import Doorito.Portal.Uploads

/-! The task that deletes expired files (`portal/tasks.py`). It deletes the blobs one by
one and, after the last of them, the rows in one statement. -/

set_option autoImplicit false

namespace Doorito.Portal

open Foundation Common

/-- `BATCH_SIZE`. -/
def expiredBatchSize : Nat := 1000

/-! ## Rows -/

/-- Delete files, the sessions of the files and the parts of the sessions, as the foreign
keys cascade. -/
def Database.deleteFiles (database : Database) (pks : List Uuid) : Database :=
  let ofDeletedFile (session : UploadSession) : Bool := session.file ∈ pks
  let ofDeletedSession (part : UploadPart) : Bool :=
    database.sessions.rows.any fun session => session.pk = part.session ∧ ofDeletedFile session
  { database with
    files := database.files.deleteWhere (·.pk ∈ pks)
    sessions := database.sessions.deleteWhere ofDeletedFile
    parts := database.parts.deleteWhere ofDeletedSession
    fileBatch := by
      intro file member
      exact database.fileBatch file (Table.mem_deleteWhere.mp member).1
    sessionFile := by
      intro session member
      obtain ⟨stored, kept⟩ := Table.mem_deleteWhere.mp member
      obtain ⟨file, fileMember, key⟩ := Table.mem_keys.mp (database.sessionFile session stored)
      have left : file ∈ (database.files.deleteWhere (·.pk ∈ pks)).rows := by
        apply Table.mem_deleteWhere.mpr
        refine ⟨fileMember, ?_⟩
        rw [key]
        exact kept
      exact key ▸ Table.mem_keys_of_mem left
    partSession := by
      intro part member
      obtain ⟨stored, kept⟩ := Table.mem_deleteWhere.mp member
      obtain ⟨session, sessionMember, key⟩ := Table.mem_keys.mp (database.partSession part stored)
      have left : session ∈ (database.sessions.deleteWhere ofDeletedFile).rows := by
        apply Table.mem_deleteWhere.mpr
        refine ⟨sessionMember, ?_⟩
        by_contra deleted
        have some : ofDeletedSession part = true :=
          List.any_eq_true.mpr ⟨session, sessionMember, by simpa [key] using deleted⟩
        rw [some] at kept
        cases kept
      exact key ▸ Table.mem_keys_of_mem left }

/-- The number that `QuerySet.delete` returns: every row that it deletes, whichever its
table. -/
def Database.deletedCount (database : Database) (pks : List Uuid) : Nat :=
  let left := database.deleteFiles pks
  (database.files.rows.length - left.files.rows.length) +
    (database.sessions.rows.length - left.sessions.rows.length) +
    (database.parts.rows.length - left.parts.rows.length)

/-! ## Selection -/

def UploadFile.isExpired (cutoff : Time) (upload : UploadFile) : Bool :=
  upload.createdAt < cutoff

/-- The keys of the expired files with the lowest keys. -/
def selectExpired (cutoff : Time) (files : FileTable) : List Uuid :=
  (((files.rows.filter (·.isExpired cutoff)).map (·.pk)).insertionSort (· ≤ ·)).take
    expiredBatchSize

/-! ## Blobs -/

/-- `upload.file.delete(save=False)`. A file without a name has no blob to delete, and the
error about a blob that is not there is caught; any other exception is given. -/
def deleteBlob (raises : Uuid → Bool) (upload : UploadFile) (storage : Storage) :
    Option Storage :=
  if upload.file = "" then some storage
  else if raises upload.pk then none
  else some (storage.deleteWhere (·.name = upload.file))

/-- The loop over the batch; `false` if an exception left it. -/
def deleteBlobs (raises : Uuid → Bool) : List UploadFile → Storage → Storage × Bool
  | [], storage => (storage, true)
  | upload :: rest, storage =>
      match deleteBlob raises upload storage with
      | none => (storage, false)
      | some left => deleteBlobs raises rest left

/-! ## The task -/

/-- What a run is given by the world: a clock reading, the order in which the rows of the
batch are read, and the files whose blob deletion raises. -/
structure CleanupInput where
  now : Time
  order : RowOrder UploadFile
  raises : Uuid → Bool

structure CleanupResult where
  deleted : Nat
  remaining : Nat
deriving DecidableEq, Repr

/-- `none` is the exception of a blob deletion. -/
def cleanupExpiredUploadFiles (ttlHours : Int) (input : CleanupInput) (state : UploadState) :
    UploadState × Option CleanupResult :=
  let cutoff := input.now - hours ttlHours
  let totalExpired := state.database.files.count (·.isExpired cutoff)
  if totalExpired = 0 then (state, some ⟨0, 0⟩)
  else
    let batchPks := selectExpired cutoff state.database.files
    let batch := input.order.arrange (state.database.files.rows.filter (·.pk ∈ batchPks))
    match deleteBlobs input.raises batch state.storage with
    | (storage, false) => ({ state with storage }, none)
    | (storage, true) =>
        let deletedCount := state.database.deletedCount batchPks
        (⟨state.database.deleteFiles batchPks, storage⟩,
          some ⟨deletedCount, totalExpired - deletedCount⟩)

end Doorito.Portal
