import Doorito.Portal.Sessions

/-! When the statements of a chunked upload go through, and what they leave of each
session row. -/

set_option autoImplicit false

namespace Doorito.Portal

open Foundation Common

variable {database result : Database} {now : Time} {session : Uuid}

theorem totalParts_mul (count chunk : Nat) (positive : 0 < chunk) (fits : count < 2 ^ 53) :
    totalParts (count * chunk) chunk = count := by
  have nonzero : (chunk : ℚ) ≠ 0 := by exact_mod_cast positive.ne'
  have quotient : ((count * chunk : Nat) : ℚ) / chunk = count := by
    rw [Nat.cast_mul, mul_div_cancel_right₀ _ nonzero]
  rw [totalParts, quotient, roundSignificand_natCast fits, Int.ceil_natCast, Int.toNat_natCast]

theorem createUploadSession_eq_ok_iff {pk file : Uuid} {totalSizeBytes : Nat}
    {chunkSizeBytes : Option Nat} :
    createUploadSession now pk file totalSizeBytes chunkSizeBytes database = .ok result ↔
      chunkSizeBytes.getD defaultChunkSizeBytes ≠ 0 ∧
        let session := newSession now pk file totalSizeBytes
          (chunkSizeBytes.getD defaultChunkSizeBytes)
        session.fitsColumns ∧ database.insertSession? session = some result := by
  unfold createUploadSession
  generalize chunkSizeBytes.getD defaultChunkSizeBytes = chunk
  by_cases zero : chunk = 0
  · simp [zero]
  · by_cases fits : (newSession now pk file totalSizeBytes chunk).fitsColumns
    · cases inserted : database.insertSession? (newSession now pk file totalSizeBytes chunk) with
      | none => simp [zero, fits, inserted]
      | some grown => simp [zero, fits, inserted]
    · simp [zero, fits]

theorem insertPart_eq_ok_iff {arguments : PartArguments} :
    insertPart now session arguments database = .ok result ↔
      arguments.fitsColumns ∧ database.insertPart? (arguments.part now session) = some result := by
  unfold insertPart
  by_cases fits : arguments.fitsColumns
  · rw [if_pos fits]
    cases database.insertPart? (arguments.part now session) <;> simp [fits]
  · simp [fits]

theorem insertPart_of_fresh (now : Time) {arguments : PartArguments}
    (fits : arguments.fitsColumns)
    (fresh : (arguments.part now session).key ∉ database.parts.keys)
    (known : (arguments.part now session).session ∈ database.sessions.keys) :
    ∃ grown, insertPart now session arguments database = .ok grown := by
  rw [insertPart, if_pos fits, Database.insertPart?, dif_pos fresh, dif_pos known]
  exact ⟨_, rfl⟩

theorem countPart_eq_ok_iff {sizeBytes : Nat} :
    countPart session sizeBytes database = .ok result ↔
      (∀ row ∈ database.sessions.rows, row.pk = session → row.countFits sizeBytes) ∧
        result = database.writeCount session sizeBytes := by
  have all : (database.sessions.rows.all fun row =>
      row.pk ≠ session || row.countFits sizeBytes) = true ↔
      ∀ row ∈ database.sessions.rows, row.pk = session → row.countFits sizeBytes := by
    rw [List.all_eq_true]
    apply forall₂_congr
    intro row _
    by_cases same : row.pk = session <;> simp [same]
  unfold countPart
  by_cases fits : ∀ row ∈ database.sessions.rows, row.pk = session → row.countFits sizeBytes
  · rw [if_pos (all.mpr fits), Except.ok.injEq]
    exact ⟨fun same => ⟨fits, same.symm⟩, fun shape => shape.2.symm⟩
  · rw [if_neg (mt all.mp fits)]
    constructor
    · intro failed
      cases failed
    · intro shape
      exact absurd shape.1 fits

theorem completeUploadSession_eq_ok_iff :
    completeUploadSession now session database = .ok result ↔
      ∃ row, database.sessions.get? session = some row ∧
        row.totalParts ≤ database.receivedCount session ∧
        result = database.writeCompletion now session row.file := by
  unfold completeUploadSession
  cases found : database.sessions.get? session with
  | none => simp
  | some row =>
      by_cases short : database.receivedCount session < row.totalParts
      · simp [short]
      · simp [short, not_lt.mp short, eq_comm]

section Rows

variable {row : UploadSession} (member : row ∈ database.sessions.rows) (key : row.pk = session)
include member key

theorem countPart_of_fits {sizeBytes : Nat} (fits : row.countFits sizeBytes) :
    countPart session sizeBytes database = .ok (database.writeCount session sizeBytes) := by
  apply countPart_eq_ok_iff.mpr
  refine ⟨?_, rfl⟩
  intro other otherMember otherKey
  rw [Table.eq_of_key_eq otherMember member (otherKey.trans key.symm)]
  exact fits

theorem completeUploadSession_of_enough
    (enough : row.totalParts ≤ database.receivedCount session) :
    completeUploadSession now session database =
      .ok (database.writeCompletion now session row.file) := by
  apply completeUploadSession_eq_ok_iff.mpr
  exact ⟨row, Table.get?_eq_some_iff.mpr ⟨member, key⟩, enough, rfl⟩

end Rows

section Writes

variable {sizeBytes : Nat} {file wanted : Uuid}

theorem sessions_writeCount :
    (database.writeCount session sizeBytes).sessions.rows = database.sessions.rows.map fun row =>
      if row.pk = session then row.counted sizeBytes else row := by
  simp [Database.writeCount, Database.updateSessions]

theorem sessions_writeCompletion :
    (database.writeCompletion now session file).sessions.rows =
      database.sessions.rows.map fun row =>
        if row.pk = session then row.completed now else row := by
  simp [Database.writeCompletion, Database.updateFiles, Database.updateSessions]

theorem files_writeCompletion :
    (database.writeCompletion now session file).files.rows = database.files.rows.map fun row =>
      if row.pk = file ∧ row.status = .uploading then row.store else row := by
  simp [Database.writeCompletion, Database.updateFiles, Database.updateSessions]

@[simp] theorem events_writeCompletion :
    (database.writeCompletion now session file).events = database.events := rfl

end Writes

theorem recordUploadPart_frame {arguments : PartArguments} :
    (recordUploadPart now session arguments database).1.files = database.files ∧
      (recordUploadPart now session arguments database).1.events = database.events := by
  unfold recordUploadPart
  cases inserted : insertPart now session arguments database with
  | error error => exact ⟨rfl, rfl⟩
  | ok grown =>
      obtain ⟨_, stored⟩ := insertPart_eq_ok_iff.mp inserted
      obtain ⟨_, _, _, files, _, _, events⟩ := Database.insertPart?_eq_some stored
      cases counted : countPart session arguments.sizeBytes grown with
      | error error => simpa only [counted] using ⟨files, events⟩
      | ok result =>
          obtain ⟨_, rfl⟩ := countPart_eq_ok_iff.mp counted
          simpa only [counted] using ⟨files, events⟩

/-! ## A session of two chunks -/

namespace Sample

theorem totalParts_twoChunks : totalParts 1000 500 = 2 :=
  totalParts_mul 2 500 (by decide) (by decide)

theorem twoChunks_created : ∃ created,
    createUploadSession 0 (uuid 1) file.pk 1000 (some 500) fileStarted = .ok created := by
  refine ⟨_, createUploadSession_eq_ok_iff.mpr ⟨by decide, ?_, rfl⟩⟩
  simp [UploadSession.fitsColumns, newSession, totalParts_twoChunks, positiveIntegerMax,
    positiveBigIntegerMax]

end Sample

end Doorito.Portal
