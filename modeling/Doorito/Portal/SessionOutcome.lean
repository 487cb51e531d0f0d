import Doorito.Portal.StoredFiles

/-! Whether the file of a completed session is STORED. The completion stores a file that is
UPLOADING and says nothing of any other; `mark_file_failed` writes the file and does not
look at the session. So a session becomes COMPLETE over a file that has FAILED. -/

set_option autoImplicit false

namespace Doorito.Portal

open Foundation Common

/-- A completion of a session of the file that returns leaves the session COMPLETE and the
file STORED. -/
def CompletionStores (file : Uuid) (state : UploadState) : PortalAction → Prop
  | .completeUploadSession now session =>
      ∀ completed, completeUploadSession now session state.database = .ok completed →
        ∀ row ∈ completed.sessions.rows, row.pk = session → row.file = file →
          row.status = .complete ∧
            ∃ upload ∈ completed.files.rows, upload.pk = file ∧ upload.status = .stored
  | _ => True

/-- A completion of a session of the file that has received enough parts. -/
def CompletesFile (file : Uuid) (state : UploadState) : PortalAction → Prop
  | .completeUploadSession _ session =>
      ∃ row ∈ state.database.sessions.rows, row.pk = session ∧ row.file = file ∧
        row.totalParts ≤ state.database.receivedCount session
  | _ => False

def PortalAction.Marks (file : Uuid) : PortalAction → Prop
  | .markFileFailed _ marked _ => marked = file
  | _ => False

section Completion

variable {state : UploadState} {file : Uuid}

theorem files_completed (now : Time) (session : Uuid) {upload : UploadFile}
    (member : upload ∈ state.database.files.rows) :
    ∃ later ∈ (state.database.writeCompletion now session upload.pk).files.rows,
      later.pk = upload.pk ∧
        later.status = if upload.status = .uploading then .stored else upload.status := by
  refine ⟨if upload.pk = upload.pk ∧ upload.status = .uploading then upload.store else upload,
    ?_, ?_, ?_⟩
  · rw [files_writeCompletion]
    exact List.mem_map_of_mem member
  · simp [apply_ite UploadFile.pk]
  · by_cases uploading : upload.status = .uploading <;> simp [uploading, UploadFile.store]

/-- A completion that returns stores the file unless it has FAILED. -/
theorem completionStores_iff {upload : UploadFile} {action : PortalAction}
    (member : upload ∈ state.database.files.rows) :
    CompletionStores upload.pk state action ↔
      (CompletesFile upload.pk state action → upload.status ≠ .failed) := by
  cases action with
  | completeUploadSession now session =>
      obtain ⟨later, laterMember, laterKey, status⟩ := files_completed now session member
      constructor
      · intro stores completes failed
        obtain ⟨row, rowMember, rowKey, rowFile, enough⟩ := completes
        have completed : completeUploadSession now session state.database = .ok _ :=
          completeUploadSession_of_enough rowMember rowKey enough
        have image : row.completed now ∈
            (state.database.writeCompletion now session row.file).sessions.rows := by
          rw [sessions_writeCompletion]
          exact List.mem_map.mpr ⟨row, rowMember, if_pos rowKey⟩
        obtain ⟨_, stored, storedMember, storedKey, isStored⟩ :=
          stores _ completed _ image rowKey rowFile
        rw [rowFile] at storedMember
        have same := Table.eq_of_key_eq storedMember laterMember (storedKey.trans laterKey.symm)
        rw [same, status, failed] at isStored
        cases isStored
      · intro unfailed completed result row rowMember rowKey rowFile
        obtain ⟨old, found, enough, rfl⟩ := completeUploadSession_eq_ok_iff.mp result
        obtain ⟨oldMember, oldKey⟩ := Table.get?_eq_some_iff.mp found
        rw [sessions_writeCompletion] at rowMember
        obtain ⟨origin, originMember, rfl⟩ := List.mem_map.mp rowMember
        have originKey : origin.pk = session := by simpa [apply_ite UploadSession.pk] using rowKey
        obtain rfl := Table.eq_of_key_eq originMember oldMember (originKey.trans oldKey.symm)
        have originFile : origin.file = upload.pk := by
          simpa [apply_ite UploadSession.file] using rowFile
        refine ⟨by rw [if_pos originKey]; rfl, later, originFile ▸ laterMember, laterKey, ?_⟩
        have alive := unfailed ⟨origin, oldMember, originKey, originFile, enough⟩
        rw [status]
        cases current : upload.status with
        | uploading => rfl
        | stored => rfl
        | failed => exact absurd current alive
  | _ => simp [CompletionStores, CompletesFile]

end Completion

section Fate

variable {state next : UploadState} {action : PortalAction} {upload : UploadFile}

theorem kept_of_appended {grown : Database} {more : List UploadFile}
    (files : grown.files.rows = state.database.files.rows ++ more)
    (member : upload ∈ state.database.files.rows) :
    ∃ later ∈ grown.files.rows, later.pk = upload.pk ∧ later.status = upload.status :=
  ⟨upload, files ▸ List.mem_append_left _ member, rfl, rfl⟩

theorem kept_of_createUploadFile (settings : Settings) (input : UploadInput)
    (user : Option Nat) (file : UploadedFile) (batch : Option Uuid)
    (member : upload ∈ state.database.files.rows) :
    ∃ later ∈ (createUploadFile settings input user file batch state).1.database.files.rows,
      later.pk = upload.pk ∧ later.status = upload.status := by
  rcases createUploadFile_database settings input user file batch state with
    same | ⟨_, _, inserted⟩ | ⟨_, _, _, _, _, inserted, _, result⟩
  · exact ⟨upload, same ▸ member, rfl, rfl⟩
  · exact kept_of_appended (Database.insertFile?_eq_some inserted).2.1 member
  · rw [result]
    exact kept_of_appended (Database.insertFile?_eq_some inserted).2.1 member

/-- A step fails the file exactly if it marks it, and nothing takes that back. -/
theorem fate_of_step (stepped : portal.step state action = some next)
    (member : upload ∈ state.database.files.rows) :
    ∃ later ∈ next.database.files.rows, later.pk = upload.pk ∧
      (later.status = .failed ↔ upload.status = .failed ∨ action.Marks upload.pk) := by
  have unmarked : (∃ later ∈ next.database.files.rows,
        later.pk = upload.pk ∧ later.status = upload.status) → ¬ action.Marks upload.pk →
      ∃ later ∈ next.database.files.rows, later.pk = upload.pk ∧
        (later.status = .failed ↔ upload.status = .failed ∨ action.Marks upload.pk) := by
    intro kept other
    obtain ⟨later, laterMember, key, same⟩ := kept
    exact ⟨later, laterMember, key, by rw [same]; exact (or_iff_left other).symm⟩
  cases portal_steps_of_step stepped with
  | uploaded => exact unmarked (kept_of_createUploadFile _ _ _ _ _ member) id
  | started _ inserted =>
      exact unmarked (kept_of_appended (Database.insertFile?_eq_some inserted).2.1 member) id
  | sessionCreated inserted =>
      obtain ⟨_, _, _, files, _⟩ := Database.insertSession?_eq_some inserted
      exact unmarked ⟨upload, files ▸ member, rfl, rfl⟩ id
  | @partRecorded now session arguments =>
      have files : (recordUploadPart now session arguments state.database).1.files =
          state.database.files := recordUploadPart_frame.1
      exact unmarked ⟨upload, files.symm ▸ member, rfl, rfl⟩ id
  | @completed now row _ _ =>
      refine ⟨if upload.pk = row.file ∧ upload.status = .uploading then upload.store
        else upload, ?_, ?_, ?_⟩
      · rw [files_writeCompletion]
        exact List.mem_map_of_mem member
      · simp [apply_ite UploadFile.pk]
      · split
        · next uploading => simp [UploadFile.store, uploading.2, PortalAction.Marks]
        · simp [PortalAction.Marks]
  | @marked now file error =>
      refine ⟨if upload.pk = file then upload.markFailed now error else upload, ?_, ?_, ?_⟩
      · simp only [Database.updateFiles, Table.rows_updateWhere, List.mem_map]
        exact ⟨upload, member, by simp⟩
      · simp [apply_ite UploadFile.pk]
      · by_cases same : upload.pk = file
        · simp [same, UploadFile.markFailed, PortalAction.Marks]
        · simp [same, Ne.symm same, PortalAction.Marks]
  | notified => exact unmarked ⟨upload, member, rfl, rfl⟩ id
  | refused absent =>
      refine unmarked ⟨upload, member, rfl, rfl⟩ ?_
      intro marks
      cases action with
      | markFileFailed now file error =>
          obtain rfl : file = upload.pk := marks
          exact absent now _ error rfl (Table.mem_keys_of_mem member)
      | _ => exact marks

theorem fate_of_run {actions : List PortalAction} (ran : portal.run state actions = some next)
    (member : upload ∈ state.database.files.rows) :
    ∃ later ∈ next.database.files.rows, later.pk = upload.pk ∧
      (later.status = .failed ↔
        upload.status = .failed ∨ ∃ action ∈ actions, action.Marks upload.pk) := by
  induction actions generalizing state upload with
  | nil =>
      cases ran
      exact ⟨upload, member, rfl, by simp⟩
  | cons action rest ih =>
      obtain ⟨middle, stepped, ran⟩ := portal.run_cons_eq_some_iff.mp ran
      obtain ⟨first, firstMember, firstKey, firstFate⟩ := fate_of_step stepped member
      obtain ⟨later, laterMember, laterKey, laterFate⟩ := ih ran firstMember
      refine ⟨later, laterMember, laterKey.trans firstKey, ?_⟩
      rw [laterFate, firstFate, firstKey, List.exists_mem_cons_iff, or_assoc]

end Fate

/-- A file starts UPLOADING. In every order of calls, each completion of its session that
returns leaves the session COMPLETE and the file STORED if and only if none of these
completions, with enough parts received, comes after the file was marked FAILED. -/
theorem completed_sessions_stored_iff {start : UploadState} {upload : UploadFile}
    (member : upload ∈ start.database.files.rows) (uploading : upload.status = .uploading)
    (actions : List PortalAction) :
    portal.Meets (CompletionStores upload.pk) start actions ↔
      ∀ before completion after state, actions = before ++ completion :: after →
        portal.run start before = some state → CompletesFile upload.pk state completion →
        ∀ action ∈ before, ¬ action.Marks upload.pk := by
  have fate : ∀ before state, portal.run start before = some state →
      ∃ later ∈ state.database.files.rows, later.pk = upload.pk ∧
        (later.status = .failed ↔ ∃ action ∈ before, action.Marks upload.pk) := by
    intro before state ran
    obtain ⟨later, laterMember, key, failed⟩ := fate_of_run ran member
    refine ⟨later, laterMember, key, ?_⟩
    rw [failed, uploading]
    exact or_iff_right (by decide)
  rw [Machine.meets_iff_forall_split]
  constructor
  · intro stores before completion after state split ran completes action earlier marks
    obtain ⟨later, laterMember, key, failed⟩ := fate before state ran
    obtain ⟨next, stepped⟩ : ∃ next, portal.step state completion = some next := by
      cases completion with
      | completeUploadSession now session =>
          simp only [portal]
          split <;> exact ⟨_, rfl⟩
      | _ => exact completes.elim
    have stored := stores before completion after state next split ran stepped
    rw [← key, completionStores_iff laterMember, key] at stored
    exact stored completes (failed.mpr ⟨action, earlier, marks⟩)
  · intro unmarked before completion after state next split ran _
    obtain ⟨later, laterMember, key, failed⟩ := fate before state ran
    rw [← key, completionStores_iff laterMember, key]
    intro completes isFailed
    obtain ⟨action, earlier, marks⟩ := failed.mp isFailed
    exact unmarked before completion after state split ran completes action earlier marks

theorem Sample.file_mem_fileStarted : file ∈ fileStarted.files.rows := List.mem_cons_self

/-- The only chunk arrives and the session is completed. -/
theorem completed_sessions_stored_chunk :
    portal.Meets (CompletionStores Sample.file.pk) ⟨Sample.fileStarted, .empty⟩
      [.createUploadSession 0 (Sample.uuid 1) Sample.file.pk 500 (some 500),
        .recordUploadPart 0 (Sample.uuid 1) Sample.chunk,
        .completeUploadSession 0 (Sample.uuid 1)] := by
  refine (completed_sessions_stored_iff Sample.file_mem_fileStarted rfl _).mpr ?_
  intro before completion after state split _ _ action earlier
  have listed := List.mem_append_left (completion :: after) earlier
  rw [← split] at listed
  simp only [List.mem_cons, List.not_mem_nil, or_false] at listed
  rcases listed with rfl | rfl | rfl <;> exact id

namespace Sample

def chunkFailed : Database :=
  chunkReceived.updateFiles (·.pk = file.pk) (·.markFailed 0 "disk full")
    (UploadFile.pk_markFailed 0 "disk full") (UploadFile.batch_markFailed 0 "disk full")

def failingUpload : List PortalAction :=
  [.createUploadSession 0 (uuid 1) file.pk 500 (some 500), .recordUploadPart 0 (uuid 1) chunk,
    .markFileFailed 0 file.pk "disk full"]

theorem failingUpload_run : portal.run ⟨fileStarted, .empty⟩ failingUpload =
    some ⟨chunkFailed, .empty⟩ := by
  refine portal.run_cons_eq_some_iff.mpr ⟨⟨chunkExpected, .empty⟩, ?_, rfl⟩
  simp only [portal, chunkExpected_created]

end Sample

/-- The file is marked FAILED after its only chunk has arrived; the completion then reports
a COMPLETE session. -/
theorem completed_session_has_failed_file :
    ¬ ∀ (start : UploadState) (upload : UploadFile), upload ∈ start.database.files.rows →
      upload.status = .uploading → ∀ actions : List PortalAction,
        portal.Meets (CompletionStores upload.pk) start actions := by
  intro stores
  let completion : PortalAction := .completeUploadSession 0 (Sample.uuid 1)
  let row := (newSession 0 (Sample.uuid 1) Sample.file.pk 500 500).counted 500
  have member : row ∈ Sample.chunkFailed.sessions.rows := List.mem_cons_self
  have enough : row.totalParts ≤ Sample.chunkFailed.receivedCount (Sample.uuid 1) :=
    (totalParts_mul 1 500 (by decide) (by decide)).le
  have completed : completeUploadSession 0 (Sample.uuid 1) Sample.chunkFailed = .ok _ :=
    completeUploadSession_of_enough member rfl enough
  let failed := Sample.file.markFailed 0 "disk full"
  have failedMember : failed ∈ Sample.chunkFailed.files.rows := List.mem_cons_self
  have stored : CompletionStores failed.pk ⟨Sample.chunkFailed, .empty⟩ completion :=
    Machine.meets_iff_forall_split.mp
      (stores _ Sample.file List.mem_cons_self rfl (Sample.failingUpload ++ [completion]))
      Sample.failingUpload completion [] _ _ rfl Sample.failingUpload_run
      (by simp only [completion, portal, completed]; rfl)
  exact (completionStores_iff failedMember).mp stored ⟨row, member, rfl, rfl, enough⟩ rfl

end Doorito.Portal
