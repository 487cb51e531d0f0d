import Doorito.Portal.Models

/-! Upload batches (`portal/services/uploads.py`): a batch is created before its files and
finalized after the last of them, each in a transaction of its own. -/

set_option autoImplicit false

namespace Doorito.Portal

open Foundation Common

namespace Database

def insertBatch? (database : Database) (batch : UploadBatch) : Option Database :=
  if fresh : batch.pk ∉ database.batches.keys then
    some { database with
      batches := database.batches.append batch fresh
      fileBatch := by
        intro file member other known
        rw [Table.keys_append]
        exact List.mem_append_left _ (database.fileBatch file member other known) }
  else none

def updateBatches (database : Database) (condition : UploadBatch → Bool)
    (change : UploadBatch → UploadBatch) (keeps : ∀ batch, (change batch).pk = batch.pk) :
    Database :=
  { database with
    batches := database.batches.updateWhere condition change keeps
    fileBatch := by
      intro file member batch known
      rw [Table.keys_updateWhere]
      exact database.fileBatch file member batch known }

def filesOf (database : Database) (batch : Uuid) : List UploadFile :=
  database.files.rows.filter fun file => file.batch = some batch

end Database

def newBatch (now : Time) (pk : Uuid) (user : Option Nat) (idempotencyKey : String) :
    UploadBatch :=
  { pk
    createdBy := user
    status := .init
    idempotencyKey
    createdAt := now
    updatedAt := now }

def UploadBatch.fitsColumns (batch : UploadBatch) : Bool := batch.idempotencyKey.length ≤ 255

def createBatch (now : Time) (pk : Uuid) (user : Option Nat) (idempotencyKey : String)
    (database : Database) : Except DbError Database :=
  let batch := newBatch now pk user idempotencyKey
  if batch.fitsColumns then
    match database.insertBatch? batch with
    | some grown => .ok grown
    | none => .error .integrityError
  else .error .dataError

/-- The status that `finalize_batch` gives a batch. -/
def finalStatus (fileStatuses : List UploadFile.Status) : UploadBatch.Status :=
  if fileStatuses.isEmpty then .failed
  else
    let successes := fileStatuses.countP (· = .stored)
    let failures := fileStatuses.countP (· = .failed)
    if failures = 0 then .complete
    else if successes = 0 then .failed
    else .partlyStored

/-- The columns that `finalize_batch` writes. -/
def UploadBatch.finalized (now : Time) (status : UploadBatch.Status) (batch : UploadBatch) :
    UploadBatch :=
  { batch with
    status
    updatedAt := now }

@[simp] theorem UploadBatch.pk_finalized (now : Time) (status : UploadBatch.Status)
    (batch : UploadBatch) : (batch.finalized now status).pk = batch.pk := rfl

def finalizeBatch (now : Time) (batch : Uuid) (database : Database) : Except DbError Database :=
  let status := finalStatus ((database.filesOf batch).map (·.status))
  if batch ∈ database.batches.keys then
    .ok (database.updateBatches (·.pk = batch) (·.finalized now status)
      (UploadBatch.pk_finalized now status))
  else .error .databaseError

section Laws

variable {database result : Database} {now : Time} {pk : Uuid}

theorem Database.insertBatch?_eq_some {batch : UploadBatch}
    (inserted : database.insertBatch? batch = some result) :
    batch.pk ∉ database.batches.keys ∧ result.batches.rows = database.batches.rows ++ [batch] ∧
      result.files = database.files ∧ result.sessions = database.sessions ∧
      result.parts = database.parts ∧ result.events = database.events := by
  unfold insertBatch? at inserted
  split at inserted <;> cases inserted
  next fresh => exact ⟨fresh, rfl, rfl, rfl, rfl, rfl⟩

theorem createBatch_eq_ok_iff {user : Option Nat} {idempotencyKey : String} :
    createBatch now pk user idempotencyKey database = .ok result ↔
      (newBatch now pk user idempotencyKey).fitsColumns ∧
        database.insertBatch? (newBatch now pk user idempotencyKey) = some result := by
  unfold createBatch
  by_cases fits : (newBatch now pk user idempotencyKey).fitsColumns
  · cases inserted : database.insertBatch? (newBatch now pk user idempotencyKey) with
    | none => simp [fits, inserted]
    | some grown => simp [fits, inserted]
  · simp [fits]

theorem createBatch_of_fresh (now : Time) (user : Option Nat)
    (fresh : pk ∉ database.batches.keys) :
    ∃ grown, createBatch now pk user "" database = .ok grown := by
  have inserted : database.insertBatch? (newBatch now pk user "") = some _ := dif_pos fresh
  exact ⟨_, createBatch_eq_ok_iff.mpr ⟨by simp [UploadBatch.fitsColumns, newBatch], inserted⟩⟩

theorem createBatch_taken (now : Time) (user : Option Nat) (taken : pk ∈ database.batches.keys) :
    createBatch now pk user "" database = .error .integrityError := by
  have rejected : database.insertBatch? (newBatch now pk user "") = none :=
    dif_neg (not_not.mpr taken)
  have fits : (newBatch now pk user "").fitsColumns := by
    simp [UploadBatch.fitsColumns, newBatch]
  simp only [createBatch, if_pos fits, rejected]

theorem finalizeBatch_of_mem (now : Time) (present : pk ∈ database.batches.keys) :
    let status := finalStatus ((database.filesOf pk).map (·.status))
    finalizeBatch now pk database = .ok (database.updateBatches (·.pk = pk)
      (·.finalized now status) (UploadBatch.pk_finalized now status)) :=
  if_pos present

end Laws

/-! ## What the final status says -/

/-- The status fits the statuses of the files: all STORED, some of each, or none STORED. -/
def UploadBatch.Status.Fits : UploadBatch.Status → List UploadFile.Status → Prop
  | .complete, statuses => statuses ≠ [] ∧ ∀ status ∈ statuses, status = .stored
  | .partlyStored, statuses => .stored ∈ statuses ∧ .failed ∈ statuses
  | .failed, statuses => ∀ status ∈ statuses, status = .failed
  | .init, _ => False
  | .inProgress, _ => False

theorem finalStatus_fits {statuses : List UploadFile.Status}
    (done : ∀ status ∈ statuses, status = .stored ∨ status = .failed) :
    (finalStatus statuses).Fits statuses := by
  simp only [finalStatus]
  split_ifs with none failures successes
  · rw [List.isEmpty_iff.mp none]
    intro status member
    cases member
  · rw [List.countP_eq_zero] at failures
    refine ⟨fun empty => by simp [empty] at none, ?_⟩
    intro status member
    exact (done status member).resolve_right (by simpa using failures status member)
  · rw [List.countP_eq_zero] at successes
    intro status member
    exact (done status member).resolve_left (by simpa using successes status member)
  · obtain ⟨bad, badMember, isFailed⟩ := List.countP_pos_iff.mp (Nat.pos_of_ne_zero failures)
    obtain ⟨good, goodMember, isStored⟩ := List.countP_pos_iff.mp (Nat.pos_of_ne_zero successes)
    exact ⟨of_decide_eq_true isStored ▸ goodMember, of_decide_eq_true isFailed ▸ badMember⟩

end Doorito.Portal
