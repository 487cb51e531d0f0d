import Doorito.Portal.ExpirySteps
import Doorito.Portal.StoredUpload

/-! What one step does to the columns of the files, to the file cleanups and to the storage. -/

set_option autoImplicit false

namespace Doorito.Portal

open Foundation Common

/-! ## Files -/

/-- The row is the old one, of which a step changes the status and the error alone. A file is
STORED later only if it was, or if it was UPLOADING. -/
structure UploadFile.SameFile (old row : UploadFile) : Prop where
  pk : old.pk = row.pk
  file : old.file = row.file
  createdAt : old.createdAt = row.createdAt
  sha256 : old.sha256 = row.sha256
  stored : row.status = .stored → old.status = .stored ∨ old.status = .uploading
  uploading : row.status = .uploading → old.status = .uploading

theorem UploadFile.SameFile.refl (row : UploadFile) : row.SameFile row :=
  ⟨rfl, rfl, rfl, rfl, .inl, id⟩

/-- Where a row comes from that is there after a call. -/
inductive CallRowOrigin (state next : UploadState) (action : PortalAction) (row : UploadFile) :
    Prop where
  | kept (old : UploadFile) (member : old ∈ state.database.files.rows) (same : old.SameFile row)
  | started (is : action = .startUpload row) (status : row.status = .uploading)
  | created (settings : Settings) (input : UploadInput) (user : Option Nat) (file : UploadedFile)
      (batch : Option Uuid) (is : action = .createUploadFile settings input user file batch)
      (shape : row = createdRow settings input user file batch)
      (blob : next.storage.rows = state.storage.rows ++ [⟨input.blobName, file.content⟩])
      (fresh : input.blobName ∉ state.storage.keys)

section Calls

variable {state next : UploadState} {action : PortalAction}

theorem createUploadFile_storage (settings : Settings) (input : UploadInput) (user : Option Nat)
    (file : UploadedFile) (batch : Option Uuid) (state : UploadState) :
    (createUploadFile settings input user file batch state).1.storage.rows =
      blobsAfter input file.content state.storage := by
  cases outcome : validateFile settings file none with
  | error invalid =>
      rw [createUploadFile_of_invalid outcome]
      exact createWithBlob_storage _ _ _ _
  | ok valid =>
      rw [createUploadFile_of_valid outcome]
      exact storeUpload_storage _ _ _ _

theorem call_row_origin (stepped : portal.step state action = some next) {row : UploadFile}
    (member : row ∈ next.database.files.rows) : CallRowOrigin state next action row := by
  have kept : row ∈ state.database.files.rows → CallRowOrigin state next action row :=
    fun old => .kept row old (.refl row)
  cases portal_steps_of_step stepped with
  | @uploaded settings input user file batch =>
      have storage := createUploadFile_storage settings input user file batch state
      cases created : createUploadFile settings input user file batch state with
      | mk left result =>
          rw [created] at member storage kept
          cases result with
          | error error =>
              rw [createUploadFile_of_error created] at member
              exact kept member
          | ok upload =>
              obtain ⟨rfl, files, _⟩ := createUploadFile_eq_ok created
              rw [files, List.mem_append, List.mem_singleton] at member
              rcases member with old | rfl
              · exact kept old
              · have through := (createUploadFile_ok_iff.mp ⟨_, _, created⟩).row.saves
                rw [blobsAfter, if_pos through] at storage
                exact .created settings input user file batch rfl rfl storage through.2
  | started uploading inserted =>
      rw [(Database.insertFile?_eq_some inserted).2.1, List.mem_append,
        List.mem_singleton] at member
      rcases member with old | rfl
      · exact kept old
      · exact .started rfl uploading
  | sessionCreated inserted =>
      obtain ⟨_, _, _, files, _⟩ := Database.insertSession?_eq_some inserted
      exact kept (files ▸ member)
  | @partRecorded now session arguments =>
      have files : (recordUploadPart now session arguments state.database).1.files =
          state.database.files := recordUploadPart_frame.1
      exact kept (files ▸ member)
  | completed _ _ =>
      rw [files_writeCompletion, List.mem_map] at member
      obtain ⟨old, oldMember, rfl⟩ := member
      refine .kept old oldMember ?_
      split
      · next settles =>
        refine ⟨rfl, rfl, rfl, rfl, fun _ => .inr settles.2, ?_⟩
        intro uploading
        cases uploading
      · exact .refl old
  | marked =>
      simp only [Database.updateFiles, Table.rows_updateWhere, List.mem_map] at member
      obtain ⟨old, oldMember, rfl⟩ := member
      refine .kept old oldMember ?_
      split
      · refine ⟨rfl, rfl, rfl, rfl, ?_, ?_⟩ <;>
          · intro failed
            cases failed
      · exact .refl old
  | notified => exact kept member
  | refused _ => exact kept member

theorem call_storage (stepped : portal.step state action = some next) :
    state.storage.rows ⊆ next.storage.rows := by
  cases portal_steps_of_step stepped with
  | @uploaded settings input user file batch =>
      rw [createUploadFile_storage]
      exact List.subset_append_left _ _
  | _ => exact List.Subset.refl _

theorem createdAt_createdRow (settings : Settings) (input : UploadInput) (user : Option Nat)
    (file : UploadedFile) (batch : Option Uuid) :
    (createdRow settings input user file batch).createdAt = input.now := by
  unfold createdRow
  split <;> rfl

theorem file_createdRow (settings : Settings) (input : UploadInput) (user : Option Nat)
    (file : UploadedFile) (batch : Option Uuid) :
    (createdRow settings input user file batch).file = input.blobName := by
  unfold createdRow
  split <;> rfl

theorem sha256_createdRow {settings : Settings} {input : UploadInput} {user : Option Nat}
    {file : UploadedFile} {batch : Option Uuid}
    (stored : (createdRow settings input user file batch).status = .stored) :
    (createdRow settings input user file batch).sha256 = hex (Sha256.digest file.content) := by
  cases outcome : validateFile settings file none with
  | error invalid =>
      rw [createdRow_of_invalid outcome] at stored
      cases stored
  | ok valid =>
      rw [createdRow_of_valid outcome]
      exact computeSha256_fst file

end Calls

section Steps

variable {settings : Settings} {retentionHours : Int} {world next : ExpiryWorld}
  {action : ExpiryAction} {number : Nat} {phase : FileCleanupPhase}

/-- A row continues an earlier one, or the step is the call that creates it, with a new key. -/
theorem step_upload_origin
    (stepped : (expiry settings retentionHours).step world action = some next)
    {row : UploadFile} (member : row ∈ next.files.rows) :
    (∃ old ∈ world.files.rows, old.SameFile row) ∨
      ∃ call, action = .portal call ∧ CallRowOrigin world.state next.state call row ∧
        row.pk ∉ world.issuedFiles := by
  have kept : row ∈ world.files.rows → ∃ old ∈ world.files.rows, old.SameFile row :=
    fun old => ⟨row, old, .refl row⟩
  cases step_effect stepped with
  | called call is made =>
      obtain ⟨_, fresh, state, moved, rfl⟩ := call_eq_some made
      have origin := call_row_origin moved member
      cases origin with
      | kept old oldMember same => exact .inl ⟨old, oldMember, same⟩
      | started shape status =>
          refine .inr ⟨call, is, .started shape status, fresh _ ?_⟩
          rw [shape]
          rfl
      | created given input user file batch shape rowIs blob unused =>
          refine .inr ⟨call, is, .created given input user file batch shape rowIs blob unused,
            fresh _ ?_⟩
          rw [shape, rowIs, createdRow_pk]
          rfl
  | delivered step later is admitted moved shape =>
      rw [shape] at member
      exact .inl (kept member)
  | announced number input sweep upload rest is found fresh shape =>
      rw [shape, announceNext_files.1] at member
      exact .inl (kept member)
  | deleted number totalExpired batchPks is found files =>
      rw [files] at member
      exact .inl (kept (Table.mem_deleteWhere.mp member).1)
  | quiet events files =>
      rw [files] at member
      exact .inl (kept member)

/-! ## File cleanups -/

/-- Where the phase of a cleanup comes from. -/
inductive FileCleanupOrigin (settings : Settings) (world : ExpiryWorld) (action : ExpiryAction)
    (number : Nat) (phase : FileCleanupPhase) : Prop where
  | kept (same : world.fileCleanups[number]? = some phase)
  | ended (is : phase = .ended)
  | counted (now : Time) (totalExpired : Nat) (is : action = .countExpired now)
      (shape : phase = .counted (now - hours settings.ttlHours) totalExpired)
  | selected (cutoff : Time) (totalExpired : Nat)
      (was : world.fileCleanups[number]? = some (.counted cutoff totalExpired))
      (shape : phase = .selected totalExpired (selectExpired cutoff world.files))
  | read (totalExpired : Nat) (batchPks : List Uuid) (rest : List UploadFile)
      (was : world.fileCleanups[number]? = some (.selected totalExpired batchPks))
      (found : ∀ upload ∈ rest, upload ∈ world.files.rows ∧ upload.pk ∈ batchPks)
      (shape : phase = .deleting totalExpired batchPks rest)
  | passed (totalExpired : Nat) (batchPks : List Uuid) (upload : UploadFile)
      (rest : List UploadFile)
      (was : world.fileCleanups[number]? = some (.deleting totalExpired batchPks (upload :: rest)))
      (shape : phase = .deleting totalExpired batchPks rest)

theorem getElem?_set_fileCleanup {phases : List FileCleanupPhase} {other : Nat}
    {new : FileCleanupPhase} (found : (phases.set other new)[number]? = some phase) :
    phases[number]? = some phase ∨ number = other ∧ phase = new := by
  rw [List.getElem?_set] at found
  split_ifs at found with same within
  · exact .inr ⟨same.symm, (Option.some.inj found).symm⟩
  · exact .inl found

theorem step_fileCleanup_origin
    (stepped : (expiry settings retentionHours).step world action = some next)
    (found : next.fileCleanups[number]? = some phase) :
    FileCleanupOrigin settings world action number phase := by
  simp only [expiry] at stepped
  cases action with
  | portal call =>
      obtain ⟨_, _, _, _, rfl⟩ := call_eq_some stepped
      exact .kept found
  | outbox step =>
      simp only [ExpiryWorld.step] at stepped
      split_ifs at stepped
      obtain ⟨later, _, rfl⟩ := Option.map_eq_some_iff.mp stepped
      exact .kept found
  | announce other input =>
      simp only [ExpiryWorld.step] at stepped
      split at stepped
      · split_ifs at stepped
        cases stepped
        unfold ExpiryWorld.announceNext at found
        split at found <;> exact .kept found
      · cases stepped
  | beginSweep now order =>
      cases stepped
      exact .kept found
  | endSweep other =>
      simp only [ExpiryWorld.step] at stepped
      split at stepped <;> cases stepped
      exact .kept found
  | countExpired now =>
      cases stepped
      simp only [ExpiryWorld.startFileCleanup, List.getElem?_append] at found
      split at found
      · exact .kept found
      · have new := List.mem_singleton.mp (List.mem_of_getElem? found)
        split at new
        · exact .ended new
        · exact .counted now _ rfl new
  | selectExpired other =>
      simp only [ExpiryWorld.step] at stepped
      split at stepped <;> cases stepped
      next cutoff totalExpired was =>
      rcases getElem?_set_fileCleanup found with same | ⟨rfl, new⟩
      · exact .kept same
      · exact .selected cutoff totalExpired was new
  | readExpired other order =>
      simp only [ExpiryWorld.step] at stepped
      split at stepped <;> cases stepped
      next totalExpired batchPks was =>
      rcases getElem?_set_fileCleanup found with same | ⟨rfl, new⟩
      · exact .kept same
      · refine .read totalExpired batchPks _ was ?_ new
        intro upload member
        have among := (order.perm _).mem_iff.mp member
        simpa using List.mem_filter.mp among
  | deleteBlob other raises =>
      simp only [ExpiryWorld.step] at stepped
      split at stepped
      · next totalExpired batchPks upload rest was =>
        cases stepped
        unfold ExpiryWorld.deleteNextBlob at found
        split at found
        · rcases getElem?_set_fileCleanup found with same | ⟨_, new⟩
          · exact .kept same
          · exact .ended new
        · rcases getElem?_set_fileCleanup found with same | ⟨rfl, new⟩
          · exact .kept same
          · exact .passed totalExpired batchPks upload rest was new
      · cases stepped
  | deleteFiles other | endCleanup other =>
      simp only [ExpiryWorld.step] at stepped
      split at stepped <;> cases stepped
      rcases getElem?_set_fileCleanup found with same | ⟨_, new⟩
      · exact .kept same
      · exact .ended new

/-! ## Storage -/

/-- Blobs go only when a cleanup comes to a file of their name. -/
theorem step_storage (stepped : (expiry settings retentionHours).step world action = some next) :
    world.state.storage.rows ⊆ next.state.storage.rows ∨
      ∃ (number totalExpired : Nat) (batchPks : List Uuid) (upload : UploadFile)
        (rest : List UploadFile),
        world.fileCleanups[number]? = some (.deleting totalExpired batchPks (upload :: rest)) ∧
          upload.file ≠ "" ∧
          next.state.storage = world.state.storage.deleteWhere (·.name = upload.file) := by
  have kept : next.state.storage = world.state.storage →
      world.state.storage.rows ⊆ next.state.storage.rows :=
    fun same => same ▸ List.Subset.refl _
  simp only [expiry] at stepped
  cases action with
  | portal call =>
      obtain ⟨_, _, state, moved, rfl⟩ := call_eq_some stepped
      exact .inl (call_storage moved)
  | outbox step =>
      simp only [ExpiryWorld.step] at stepped
      split_ifs at stepped
      obtain ⟨later, _, rfl⟩ := Option.map_eq_some_iff.mp stepped
      exact .inl (kept rfl)
  | announce other input =>
      simp only [ExpiryWorld.step] at stepped
      split at stepped
      · split_ifs at stepped
        cases stepped
        left
        apply kept
        unfold ExpiryWorld.announceNext
        split <;> rfl
      · cases stepped
  | deleteBlob other raises =>
      simp only [ExpiryWorld.step] at stepped
      split at stepped
      · next totalExpired batchPks upload rest was =>
        cases stepped
        unfold ExpiryWorld.deleteNextBlob
        cases deleted : deleteBlob raises upload world.state.storage with
        | none => exact .inl (List.Subset.refl _)
        | some storage =>
            unfold deleteBlob at deleted
            split_ifs at deleted with unnamed fails
            · cases deleted
              exact .inl (List.Subset.refl _)
            · cases deleted
              exact .inr ⟨other, totalExpired, batchPks, upload, rest, was, unnamed, rfl⟩
      · cases stepped
  | beginSweep _ _ | countExpired _ =>
      cases stepped
      exact .inl (kept rfl)
  | endSweep _ | selectExpired _ | readExpired _ _ | deleteFiles _ | endCleanup _ =>
      simp only [ExpiryWorld.step] at stepped
      split at stepped <;> cases stepped
      exact .inl (kept rfl)

end Steps

end Doorito.Portal
