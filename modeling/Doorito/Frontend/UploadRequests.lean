import Doorito.Frontend.Upload
import Doorito.Portal.UploadOutcome

/-! What an upload request leaves behind when one of its calls raises. The calls before it
have committed, and nobody finalizes the batch. -/

set_option autoImplicit false

namespace Doorito.Frontend

open Foundation Common Portal

/-- The batch is there with one file for each submitted one and a status that fits them. -/
def UploadRequest.Finished (request : UploadRequest) (left : UploadState) : Prop :=
  ∃ batch ∈ left.database.batches.rows, batch.pk = request.batch.pk ∧
    batch.status.Fits ((left.database.filesOf batch.pk).map (·.status)) ∧
    (left.database.filesOf batch.pk).map (·.originalFilename) =
      request.files.map (·.file.name)

/-- No batch, file or event is there that was not there before the request. -/
structure NoTrace (before left : UploadState) : Prop where
  batches : ∀ batch ∈ left.database.batches.rows, batch ∈ before.database.batches.rows
  files : ∀ file ∈ left.database.files.rows, file ∈ before.database.files.rows
  events : ∀ event ∈ left.database.events.rows, event ∈ before.database.events.rows

/-- The batch is not created: the database fails the insert, or the key is taken. -/
def UploadRequest.CreationFails (request : UploadRequest) (state : UploadState) : Prop :=
  request.batch.createFails ≠ none ∨ request.batch.pk ∈ state.database.batches.keys

/-- Each file goes through in the state that it finds. -/
def FilesGoThrough (settings : Settings) (user : Option Nat) (batch : Uuid) :
    List SubmittedFile → UploadState → Prop
  | [], _ => True
  | submitted :: rest, state =>
      UploadGoesThrough settings submitted.input user submitted.file (some batch) state ∧
        FilesGoThrough settings user batch rest
          (createUploadFile settings submitted.input user submitted.file (some batch) state).1

/-- Every file goes through once the batch is there, and the batch is finalized. -/
def UploadRequest.GoesThrough (settings : Settings) (request : UploadRequest)
    (state : UploadState) : Prop :=
  request.batch.finalizeFails = none ∧
    ∀ database, createBatch request.batch.createdAt request.batch.pk request.user ""
        state.database = .ok database →
      FilesGoThrough settings request.user request.batch.pk request.files { state with database }

section Files

variable {settings : Settings} {user : Option Nat} {batch : Uuid} {files : List SubmittedFile}
  {state : UploadState}

/-- A file row of this request. -/
structure OfBatch (batch : Uuid) (upload : UploadFile) : Prop where
  batch : upload.batch = some batch
  done : upload.status = .stored ∨ upload.status = .failed

theorem createFiles_of_goThrough (through : FilesGoThrough settings user batch files state) :
    ∃ left results, createFiles settings user batch files state = (left, .ok results) ∧
      left.database.files.rows = state.database.files.rows ++ results ∧
      left.database.batches = state.database.batches ∧
      results.map (·.originalFilename) = files.map (·.file.name) ∧
      ∀ upload ∈ results, OfBatch batch upload := by
  induction files generalizing state with
  | nil => exact ⟨state, [], rfl, by simp, rfl, rfl, by simp⟩
  | cons submitted rest ih =>
      obtain ⟨here, later⟩ := through
      obtain ⟨middle, upload, created⟩ := createUploadFile_ok_iff.mpr here
      obtain ⟨shape, files, batches⟩ := createUploadFile_eq_ok created
      rw [created] at later
      obtain ⟨left, results, looped, laterFiles, laterBatches, names, ofBatch⟩ := ih later
      refine ⟨left, upload :: results, ?_, ?_, laterBatches.trans batches, ?_, ?_⟩
      · simp only [createFiles, created, looped]
        rfl
      · rw [laterFiles, files, List.append_assoc, List.singleton_append]
      · rw [List.map_cons, List.map_cons, names, shape, createdRow_originalFilename]
      · refine List.forall_mem_cons.mpr ⟨⟨?_, ?_⟩, ofBatch⟩
        · rw [shape, createdRow_batch]
        · rw [shape]
          exact createdRow_status ..

theorem createFiles_of_not_goThrough
    (stuck : ¬ FilesGoThrough settings user batch files state) :
    ∃ left error, createFiles settings user batch files state = (left, .error error) ∧
      left.database.batches = state.database.batches := by
  induction files generalizing state with
  | nil => exact absurd trivial stuck
  | cons submitted rest ih =>
      cases created : createUploadFile settings submitted.input user submitted.file (some batch)
          state with
      | mk middle outcome =>
          cases outcome with
          | error error =>
              refine ⟨middle, error, by simp only [createFiles, created], ?_⟩
              rw [createUploadFile_of_error created]
          | ok upload =>
              obtain ⟨_, _, batches⟩ := createUploadFile_eq_ok created
              have here := createUploadFile_ok_iff.mp ⟨middle, upload, created⟩
              have later : ¬ FilesGoThrough settings user batch rest middle := by
                intro through
                exact stuck ⟨here, by rw [created]; exact through⟩
              obtain ⟨left, error, looped, laterBatches⟩ := ih later
              refine ⟨left, error, ?_, laterBatches.trans batches⟩
              simp only [createFiles, created, looped]
              rfl

end Files

section Batch

variable {settings : Settings} {request : UploadRequest} {state left : UploadState}

theorem filesOf_fresh {database : Database} {pk : Uuid} (fresh : pk ∉ database.batches.keys) :
    database.filesOf pk = [] := by
  rw [Database.filesOf, List.filter_eq_nil_iff]
  intro file member
  simp only [decide_eq_true_eq]
  intro same
  exact fresh (database.fileBatch file member pk same)

/-- A batch that is left in status INIT is neither finished nor gone. -/
theorem halfMade_of_init (fresh : request.batch.pk ∉ state.database.batches.keys)
    (batches : left.database.batches.rows = state.database.batches.rows ++
      [newBatch request.batch.createdAt request.batch.pk request.user ""]) :
    ¬ (request.Finished left ∨ NoTrace state left) := by
  let batch := newBatch request.batch.createdAt request.batch.pk request.user ""
  have member : batch ∈ left.database.batches.rows := by
    rw [batches]
    exact List.mem_append_right _ List.mem_cons_self
  intro either
  rcases either with finished | noTrace
  · obtain ⟨other, otherMember, key, fits, _⟩ := finished
    have same : other = batch := Table.eq_of_key_eq otherMember member key
    rw [same] at fits
    exact fits
  · exact fresh (Table.mem_keys_of_mem (noTrace.batches batch member))

theorem uploadBatch_of_creationFails (fails : request.CreationFails state) :
    (uploadBatch settings request state).1 = state := by
  unfold uploadBatch
  cases fault : request.batch.createFails with
  | some error => rfl
  | none =>
      have taken := fails.resolve_left (absurd fault)
      simp only [createBatch_taken request.batch.createdAt request.user taken]

/-- The files of the batch are those that the request has created, and the status is read
off them. -/
theorem finished_of_finalized {results : List UploadFile} {grown database : Database}
    (fresh : request.batch.pk ∉ state.database.batches.keys)
    (created : grown.batches.rows = state.database.batches.rows ++
      [newBatch request.batch.createdAt request.batch.pk request.user ""])
    (batches : left.database.batches = grown.batches)
    (files : left.database.files.rows = state.database.files.rows ++ results)
    (names : results.map (·.originalFilename) = request.files.map (·.file.name))
    (ofBatch : ∀ upload ∈ results, OfBatch request.batch.pk upload)
    (finalized : finalizeBatch request.batch.finalizedAt request.batch.pk left.database =
      .ok database) : request.Finished { left with database } := by
  let batch := newBatch request.batch.createdAt request.batch.pk request.user ""
  have member : batch ∈ left.database.batches.rows := by
    rw [batches, created]
    exact List.mem_append_right _ List.mem_cons_self
  have present : request.batch.pk ∈ left.database.batches.keys := Table.mem_keys_of_mem member
  have listed : left.database.filesOf request.batch.pk = results := by
    have none := filesOf_fresh fresh
    have all : results.filter (fun file => file.batch = some request.batch.pk) = results :=
      List.filter_eq_self.mpr fun upload uploadMember => by
        simp [(ofBatch upload uploadMember).batch]
    rw [Database.filesOf] at none
    rw [Database.filesOf, files, List.filter_append, none, all, List.nil_append]
  have done : ∀ status ∈ results.map (·.status), status = .stored ∨ status = .failed := by
    intro status statusMember
    obtain ⟨upload, uploadMember, rfl⟩ := List.mem_map.mp statusMember
    exact (ofBatch upload uploadMember).done
  rw [finalizeBatch_of_mem _ present, listed] at finalized
  cases finalized
  refine ⟨batch.finalized request.batch.finalizedAt (finalStatus (results.map (·.status))),
    ?_, rfl, ?_, ?_⟩
  · simp only [Database.updateBatches, Table.rows_updateWhere, List.mem_map]
    exact ⟨batch, member, by simp [batch, newBatch]⟩
  · change (finalStatus _).Fits ((left.database.filesOf request.batch.pk).map (·.status))
    rw [listed]
    exact finalStatus_fits done
  · change (left.database.filesOf request.batch.pk).map (·.originalFilename) = _
    rw [listed]
    exact names

section Created

variable {grown : Database}

theorem uploadBatch_of_goThrough (noFault : request.batch.createFails = none)
    (created : createBatch request.batch.createdAt request.batch.pk request.user ""
      state.database = .ok grown)
    (through : FilesGoThrough settings request.user request.batch.pk request.files
      { state with database := grown }) :
    request.Finished (uploadBatch settings request state).1 ∨
        NoTrace state (uploadBatch settings request state).1 ↔
      request.batch.finalizeFails = none := by
  obtain ⟨_, inserted⟩ := createBatch_eq_ok_iff.mp created
  obtain ⟨fresh, grownBatches, grownFiles, _⟩ := Database.insertBatch?_eq_some inserted
  obtain ⟨left, results, looped, files, batches, names, ofBatch⟩ :=
    createFiles_of_goThrough through
  cases fault : request.batch.finalizeFails with
  | some error =>
      have ended : (uploadBatch settings request state).1 = left := by
        simp only [uploadBatch, noFault, created, looped, fault]
      rw [ended]
      refine iff_of_false (halfMade_of_init fresh (batches ▸ grownBatches)) ?_
      exact Option.some_ne_none error
  | none =>
      have present : request.batch.pk ∈ left.database.batches.keys := by
        rw [batches, Table.keys, grownBatches, List.map_append]
        exact List.mem_append_right _ List.mem_cons_self
      obtain ⟨database, finalized⟩ : ∃ database, finalizeBatch request.batch.finalizedAt
          request.batch.pk left.database = .ok database :=
        ⟨_, finalizeBatch_of_mem request.batch.finalizedAt present⟩
      have ended : (uploadBatch settings request state).1 = { left with database } := by
        simp only [uploadBatch, noFault, created, looped, fault, finalized]
      rw [ended]
      refine iff_of_true (.inl ?_) rfl
      exact finished_of_finalized fresh grownBatches batches (grownFiles ▸ files) names ofBatch
        finalized

theorem uploadBatch_of_not_goThrough (noFault : request.batch.createFails = none)
    (created : createBatch request.batch.createdAt request.batch.pk request.user ""
      state.database = .ok grown)
    (stuck : ¬ FilesGoThrough settings request.user request.batch.pk request.files
      { state with database := grown }) :
    ¬ (request.Finished (uploadBatch settings request state).1 ∨
      NoTrace state (uploadBatch settings request state).1) := by
  obtain ⟨_, inserted⟩ := createBatch_eq_ok_iff.mp created
  obtain ⟨fresh, grownBatches, _⟩ := Database.insertBatch?_eq_some inserted
  obtain ⟨left, error, looped, batches⟩ := createFiles_of_not_goThrough stuck
  have ended : (uploadBatch settings request state).1 = left := by
    simp only [uploadBatch, noFault, created, looped]
  rw [ended]
  exact halfMade_of_init fresh (batches ▸ grownBatches)

end Created

theorem uploadBatch_iff :
    request.Finished (uploadBatch settings request state).1 ∨
        NoTrace state (uploadBatch settings request state).1 ↔
      request.CreationFails state ∨ request.GoesThrough settings state := by
  by_cases fails : request.CreationFails state
  · rw [uploadBatch_of_creationFails fails]
    exact ⟨fun _ => .inl fails, fun _ => .inr ⟨fun _ => id, fun _ => id, fun _ => id⟩⟩
  · obtain ⟨noFault, fresh⟩ := not_or.mp fails
    rw [not_not] at noFault
    obtain ⟨grown, created⟩ := createBatch_of_fresh request.batch.createdAt request.user fresh
    rw [or_iff_right fails]
    by_cases through : FilesGoThrough settings request.user request.batch.pk request.files
        { state with database := grown }
    · rw [uploadBatch_of_goThrough noFault created through]
      refine ⟨fun finalizes => ⟨finalizes, ?_⟩, And.left⟩
      intro database again
      obtain rfl := Except.ok.inj (created.symm.trans again)
      exact through
    · refine iff_of_false (uploadBatch_of_not_goThrough noFault created through) ?_
      intro condition
      exact through (condition.2 grown created)

theorem uploadView_of_post {user : Nat} (signedIn : request.user = some user)
    (posts : request.method = .post) (nonempty : request.files ≠ [])
    (few : request.files.length ≤ maxFilesPerRequest) :
    (uploadView settings request state).1 = (uploadBatch settings request state).1 := by
  simp only [uploadView, signedIn, posts, nonempty, not_lt.mpr few, if_false]

end Batch

/-- A request with one to ten files ends with a finished batch or without a trace if and only
if its batch is not created, or every file goes through and the batch is finalized. -/
theorem upload_request_all_or_nothing_iff {settings : Settings} {request : UploadRequest}
    {state : UploadState} {user : Nat} (signedIn : request.user = some user)
    (posts : request.method = .post) (nonempty : request.files ≠ [])
    (few : request.files.length ≤ maxFilesPerRequest) :
    let left := (uploadView settings request state).1
    request.Finished left ∨ NoTrace state left ↔
      request.CreationFails state ∨ request.GoesThrough settings state := by
  intro left
  simp only [left, uploadView_of_post signedIn posts nonempty few]
  exact uploadBatch_iff

/-! ## Files of three bytes where two are allowed -/

namespace Sample

def settings : Settings :=
  { maxSize := 2
    guessType := fun _ => some "text/csv" }

def submitted (key : Nat) (name : String) (fails : UploadStage → Bool) : SubmittedFile where
  file := ⟨name, [[1, 2, 3]], 0⟩
  input :=
    { now := 0
      pk := Portal.Sample.uuid key
      eventPk := Portal.Sample.uuid key
      blobName := "uploads/" ++ name
      url := id
      fails }

def request (files : List SubmittedFile) : UploadRequest where
  user := some 1
  method := .post
  htmx := false
  files
  batch :=
    { createdAt := 0
      pk := Portal.Sample.uuid 0
      createFails := none
      finalizedAt := 0
      finalizeFails := none }

/-- A file that is too large, and one that is not. -/
def mixedFiles : List SubmittedFile :=
  [submitted 1 "a.csv" fun _ => false,
    { submitted 2 "b.csv" fun _ => false with file := ⟨"b.csv", [[1, 2]], 0⟩ }]

end Sample

/-- One file is FAILED and the other STORED, and the batch is finished. -/
theorem upload_request_all_or_nothing_mixed :
    let request := Sample.request Sample.mixedFiles
    let left := (uploadView Sample.settings request .empty).1
    request.Finished left ∨ NoTrace .empty left := by
  refine (upload_request_all_or_nothing_iff rfl rfl (List.cons_ne_nil _ _) (by decide)).mpr
    (.inr ⟨rfl, ?_⟩)
  intro database created
  cases created
  refine ⟨⟨⟨⟨rfl, List.not_mem_nil⟩, rfl, by decide, List.not_mem_nil, ?_⟩, ?_⟩,
    ⟨⟨⟨rfl, by decide⟩, rfl, by decide +kernel, by decide, ?_⟩, ?_⟩, trivial⟩
  · intro batch same
    cases same
    exact List.mem_cons_self
  · intro stored
    cases stored
  · intro batch same
    cases same
    exact List.mem_cons_self
  · intro _
    exact ⟨by decide, rfl, rfl, by decide +kernel, rfl, List.not_mem_nil, rfl⟩

/-- The insert of the second row fails: the batch stays INIT with the first file. -/
theorem upload_request_leaves_half_batch :
    ¬ ∀ (settings : Settings) (request : UploadRequest) (state : UploadState) (user : Nat),
      request.user = some user → request.method = .post → request.files ≠ [] →
      request.files.length ≤ maxFilesPerRequest → request.batch.createFails = none →
      request.batch.finalizeFails = none →
      let left := (uploadView settings request state).1
      request.Finished left ∨ NoTrace state left := by
  intro sound
  let request := Sample.request [Sample.submitted 1 "a.csv" fun _ => false,
    Sample.submitted 2 "b.csv" fun stage => stage = .insertFile]
  have either := sound Sample.settings request .empty 1 rfl rfl (List.cons_ne_nil _ _) (by decide)
    rfl rfl
  rw [uploadView_of_post rfl rfl (List.cons_ne_nil _ _) (by decide)] at either
  rcases uploadBatch_iff.mp either with fails | through
  · exact fails.elim (absurd rfl) List.not_mem_nil
  · have second := (through.2 _ rfl).2.1.row.inserts
    cases second

end Doorito.Frontend
