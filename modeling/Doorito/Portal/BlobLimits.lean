import Doorito.Portal.StoredUpload

/-! What the limits on uploads keep out of storage. A rejected file is recorded with its blob,
so the limits hold for the blobs of a sequence of uploads only if no file is rejected. -/

set_option autoImplicit false

namespace Doorito.Portal

open Foundation Common

/-- The size is within the limit, and the list admits the type. -/
structure UploadedFile.WithinLimits (settings : Settings) (file : UploadedFile) : Prop where
  size : file.size ≤ settings.maxSize
  type : ∀ allowedTypes ∈ settings.allowedTypes,
    (settings.guessType file.name).getD "application/octet-stream" ∈ allowedTypes

/-- A call of `create_upload_file`. -/
structure UploadCall where
  input : UploadInput
  user : Option Nat
  file : UploadedFile
  batch : Option Uuid

/-- The blob that the call gives to storage. -/
def UploadCall.blob (call : UploadCall) : Blob := ⟨call.input.blobName, call.file.content⟩

def UploadCall.run (settings : Settings) (call : UploadCall) (state : UploadState) :
    UploadState × Except UploadError UploadFile :=
  createUploadFile settings call.input call.user call.file call.batch state

/-- The calls one after the other, whether or not they raise. -/
def uploadAll (settings : Settings) : List UploadCall → UploadState → UploadState
  | [], state => state
  | call :: rest, state => uploadAll settings rest (call.run settings state).1

/-- The call records a FAILED row and adds no event and no blob. -/
def UploadCall.OnlyRecordsFailure (settings : Settings) (call : UploadCall)
    (state : UploadState) : Prop :=
  ∃ left upload, call.run settings state = (left, .ok upload) ∧ upload.status = .failed ∧
    left.database.files.rows = state.database.files.rows ++ [upload] ∧
    left.database.events = state.database.events ∧ left.storage.rows = state.storage.rows

/-- Every blob that the calls add is of a file within the limits, and a call for any other file
only records the failure. -/
structure KeepsLimits (settings : Settings) (calls : List UploadCall) (start : UploadState) :
    Prop where
  blobs : ∀ blob ∈ (uploadAll settings calls start).storage.rows, blob ∈ start.storage.rows ∨
    ∃ call ∈ calls, blob = call.blob ∧ call.file.WithinLimits settings
  rejected : ∀ before call after, calls = before ++ call :: after →
    ¬ call.file.WithinLimits settings →
      call.OnlyRecordsFailure settings (uploadAll settings before start)

section Calls

variable {settings : Settings} {call : UploadCall} {calls : List UploadCall}
  {state start : UploadState}

theorem withinLimits_iff {file : UploadedFile} :
    file.WithinLimits settings ↔ ∃ valid, validateFile settings file none = .ok valid := by
  constructor
  · intro within
    unfold validateFile
    simp only [not_lt.mpr within.size, if_false]
    cases allowed : settings.allowedTypes with
    | none => exact ⟨_, rfl⟩
    | some allowedTypes =>
        have admitted := within.type allowedTypes allowed
        simp only [admitted, if_true]
        exact ⟨_, rfl⟩
  · intro accepted
    obtain ⟨valid, accepted⟩ := accepted
    simp only [validateFile] at accepted
    split_ifs at accepted with large
    refine ⟨not_lt.mp large, ?_⟩
    intro allowedTypes allowed
    rw [Option.mem_def.mp allowed] at accepted
    simp only at accepted
    split_ifs at accepted with admitted
    exact admitted

/-- Whatever the validation says. -/
theorem run_storage (settings : Settings) (call : UploadCall) (state : UploadState) :
    (call.run settings state).1.storage.rows =
      blobsAfter call.input call.file.content state.storage := by
  unfold UploadCall.run
  cases outcome : validateFile settings call.file none with
  | error invalid =>
      rw [createUploadFile_of_invalid outcome]
      exact createWithBlob_storage ..
  | ok valid =>
      rw [createUploadFile_of_valid outcome]
      exact storeUpload_storage ..

theorem mem_run_storage {blob : Blob} (member : blob ∈ (call.run settings state).1.storage.rows) :
    blob ∈ state.storage.rows ∨ blob = call.blob := by
  rw [run_storage, blobsAfter] at member
  refine (List.mem_append.mp member).imp_right ?_
  intro added
  split_ifs at added
  · exact List.mem_singleton.mp added
  · cases added

/-- A rejected file whose call returns is recorded as FAILED, without an event and with its
blob. -/
theorem rejected_run {left : UploadState} {upload : UploadFile}
    (rejected : ¬ call.file.WithinLimits settings)
    (returned : call.run settings state = (left, .ok upload)) :
    upload.status = .failed ∧ left.database.events = state.database.events ∧
      left.database.files.rows = state.database.files.rows ++ [upload] ∧
      left.storage.rows = state.storage.rows ++ [call.blob] := by
  unfold UploadCall.run at returned
  cases outcome : validateFile settings call.file none with
  | ok valid => exact absurd (withinLimits_iff.mpr ⟨valid, outcome⟩) rejected
  | error invalid =>
      rw [createUploadFile_of_invalid outcome] at returned
      obtain ⟨files, _, events⟩ := createWithBlob_events returned
      have blob := createWithBlob_saves returned
      obtain ⟨rfl, _⟩ := createWithBlob_ok returned
      exact ⟨rfl, events, files, blob⟩

theorem not_onlyRecordsFailure (rejected : ¬ call.file.WithinLimits settings) :
    ¬ call.OnlyRecordsFailure settings state := by
  intro recorded
  obtain ⟨left, upload, returned, _, _, _, same⟩ := recorded
  obtain ⟨_, _, _, added⟩ := rejected_run rejected returned
  rw [same] at added
  have length := congrArg List.length added
  simp at length

theorem mem_uploadAll_storage {blob : Blob}
    (member : blob ∈ (uploadAll settings calls start).storage.rows) :
    blob ∈ start.storage.rows ∨ ∃ call ∈ calls, blob = call.blob := by
  induction calls generalizing start with
  | nil => exact .inl member
  | cons call rest ih =>
      rcases ih member with before | ⟨later, laterMember, is⟩
      · refine (mem_run_storage before).imp_right ?_
        intro is
        exact ⟨call, List.mem_cons_self, is⟩
      · exact .inr ⟨later, List.mem_cons_of_mem _ laterMember, is⟩

end Calls

/-- A sequence of uploads keeps the limits if and only if none of its files is rejected. -/
theorem uploads_keep_limits_iff (settings : Settings) (calls : List UploadCall)
    (start : UploadState) :
    KeepsLimits settings calls start ↔ ∀ call ∈ calls, call.file.WithinLimits settings := by
  constructor
  · intro keeps call member
    by_contra rejected
    obtain ⟨before, after, split⟩ := List.append_of_mem member
    exact not_onlyRecordsFailure rejected (keeps.rejected before call after split rejected)
  · intro within
    constructor
    · intro blob member
      refine (mem_uploadAll_storage member).imp_right ?_
      intro added
      obtain ⟨call, callMember, is⟩ := added
      exact ⟨call, callMember, is, within call callMember⟩
    · intro before call after split rejected
      have member : call ∈ calls := split ▸ List.mem_append_right _ List.mem_cons_self
      exact absurd (within call member) rejected

/-! ## Three bytes where two are allowed -/

namespace Sample

def smallLimit : Settings := { settings with maxSize := 2 }

def oversized : UploadCall := ⟨allGoesThrough, none, report, none⟩

end Sample

/-- The blob of the rejected file is in storage. -/
theorem rejected_upload_reaches_storage :
    ¬ ∀ (settings : Settings) (calls : List UploadCall),
      ∀ blob ∈ (uploadAll settings calls .empty).storage.rows,
        blob.content.length ≤ settings.maxSize := by
  intro limited
  have size := limited Sample.smallLimit [Sample.oversized] _ List.mem_cons_self
  exact absurd size (by decide)

end Doorito.Portal
