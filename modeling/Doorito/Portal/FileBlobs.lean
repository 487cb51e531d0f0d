import Doorito.Foundation.History
import Doorito.Portal.ExpiryNotices
import Doorito.Portal.FileSteps

/-! Whether a file still has its blob. A cleanup deletes blobs by their names, so a blob can be
deleted in place of one that is gone: when storage gives a new file the name of a file that is
still in the database, or that a cleanup still has at hand. That is the only way for a file to
lose its blob before it has expired. -/

set_option autoImplicit false

namespace Doorito.Portal

open Foundation Common Machine

/-- The file is in the database, or a cleanup has it at hand to delete its blob. -/
def ExpiryWorld.AtHand (world : ExpiryWorld) (upload : UploadFile) : Prop :=
  upload ∈ world.files.rows ∨ ∃ (number totalExpired : Nat) (batchPks : List Uuid)
    (rest : List UploadFile),
    world.fileCleanups[number]? = some (.deleting totalExpired batchPks rest) ∧ upload ∈ rest

/-- The file was given a name that another file had. -/
def NameReused (settings : Settings) (retentionHours : Int) (start : ExpiryWorld)
    (actions : List ExpiryAction) (row : UploadFile) : Prop :=
  ∃ earlier given input user file batch,
    (expiry settings retentionHours).Takes start actions earlier
      (.portal (.createUploadFile given input user file batch)) ∧
    input.pk = row.pk ∧ input.blobName = row.file ∧
    ∃ other, earlier.AtHand other ∧ other.file = row.file

/-- The blob of the file is in storage, and nothing else at hand has its name. -/
structure HasBlob (world : ExpiryWorld) (row : UploadFile) : Prop where
  blob : ∃ blob ∈ world.state.storage.rows, blob.name = row.file ∧
    (row.status = .stored → row.sha256 = hex (Sha256.digest blob.content))
  only : ∀ other, world.AtHand other → other.file = row.file → other.pk = row.pk

/-- A cleanup takes files from before the cutoff, and comes to no others. -/
def FileCleanupPhase.TakesOld (cutoff : Time) (world : ExpiryWorld) : FileCleanupPhase → Prop
  | .counted earlier _ => earlier ≤ cutoff
  | .selected _ batchPks =>
      ∀ pk ∈ batchPks, pk ∈ world.issuedFiles ∧
        ∀ row ∈ world.files.rows, row.pk = pk → row.createdAt < cutoff
  | .deleting _ batchPks rest =>
      (∀ pk ∈ batchPks, pk ∈ world.issuedFiles ∧
        ∀ row ∈ world.files.rows, row.pk = pk → row.createdAt < cutoff) ∧
      ∀ upload ∈ rest, upload.pk ∈ batchPks
  | .ended => True

/-- The action takes place at this time or earlier. -/
def ExpiryAction.NotAfter (now : Time) (action : ExpiryAction) : Prop :=
  ∀ reading ∈ action.reading?, reading ≤ now

instance (now : Time) (action : ExpiryAction) : Decidable (action.NotAfter now) :=
  inferInstanceAs (Decidable (∀ reading ∈ action.reading?, reading ≤ now))

/-- A chunked upload has no blob when it starts. -/
def ExpiryAction.StartsUnnamed (action : ExpiryAction) : Prop :=
  ∀ upload, action = .portal (.startUpload upload) → upload.file = ""

structure BlobInvariant (settings : Settings) (retentionHours : Int) (start : ExpiryWorld)
    (cutoff : Time) (actions : List ExpiryAction) (world : ExpiryWorld) : Prop where
  issued : world.files.keys ⊆ world.issuedFiles
  uploading : ∀ row ∈ world.files.rows, row.status = .uploading → row.file = ""
  cleanups : ∀ (number : Nat) (phase : FileCleanupPhase),
    world.fileCleanups[number]? = some phase → phase.TakesOld cutoff world
  rows : ∀ row ∈ world.files.rows, row.file ≠ "" → cutoff ≤ row.createdAt →
    NameReused settings retentionHours start actions row ∨ HasBlob world row

section Step

variable {settings : Settings} {retentionHours : Int} {start world next : ExpiryWorld}
  {actions : List ExpiryAction} {action : ExpiryAction} {cutoff : Time} {row old : UploadFile}

theorem NameReused.append (reused : NameReused settings retentionHours start actions row)
    (more : List ExpiryAction) :
    NameReused settings retentionHours start (actions ++ more) row := by
  obtain ⟨earlier, given, input, user, file, batch, takes, shape⟩ := reused
  exact ⟨earlier, given, input, user, file, batch, takes.append more, shape⟩

theorem NameReused.of_same (same : old.SameFile row)
    (reused : NameReused settings retentionHours start actions old) :
    NameReused settings retentionHours start actions row := by
  obtain ⟨earlier, given, input, user, file, batch, takes, pk, name, other, atHand, taken⟩ :=
    reused
  exact ⟨earlier, given, input, user, file, batch, takes, pk.trans same.pk,
    name.trans same.file, other, atHand, taken.trans same.file⟩

variable (stepped : (expiry settings retentionHours).step world action = some next)
include stepped

/-- What is at hand was so before with the same key and name, or it is a new row. -/
theorem step_atHand {other : UploadFile} (atHand : next.AtHand other) :
    (∃ earlier, world.AtHand earlier ∧ earlier.pk = other.pk ∧ earlier.file = other.file) ∨
      ∃ call, action = .portal call ∧ CallRowOrigin world.state next.state call other := by
  rcases atHand with member | ⟨number, total, batchPks, rest, found, member⟩
  · rcases step_upload_origin stepped member with ⟨old, was, same⟩ | ⟨call, is, origin, _⟩
    · exact .inl ⟨old, .inl was, same.pk, same.file⟩
    · exact .inr ⟨call, is, origin⟩
  · left
    cases step_fileCleanup_origin stepped found with
    | kept same => exact ⟨other, .inr ⟨number, total, batchPks, rest, same, member⟩, rfl, rfl⟩
    | ended is => cases is
    | counted _ _ _ shape => cases shape
    | selected _ _ _ shape => cases shape
    | read _ _ _ _ among shape =>
        cases shape
        exact ⟨other, .inl (among other member).1, rfl, rfl⟩
    | passed _ _ upload _ was shape =>
        cases shape
        exact ⟨other, .inr ⟨number, total, batchPks, upload :: rest, was,
          List.mem_cons_of_mem _ member⟩, rfl, rfl⟩

theorem FileCleanupPhase.TakesOld.step {phase : FileCleanupPhase}
    (takes : phase.TakesOld cutoff world) : phase.TakesOld cutoff next := by
  have keys : ∀ batchPks : List Uuid, (∀ pk ∈ batchPks, pk ∈ world.issuedFiles ∧
      ∀ row ∈ world.files.rows, row.pk = pk → row.createdAt < cutoff) →
        ∀ pk ∈ batchPks, pk ∈ next.issuedFiles ∧
          ∀ row ∈ next.files.rows, row.pk = pk → row.createdAt < cutoff := by
    intro batchPks olds pk member
    refine ⟨step_issuedFiles stepped (olds pk member).1, ?_⟩
    intro row there key
    rcases step_upload_origin stepped there with ⟨old, was, same⟩ | ⟨_, _, _, fresh⟩
    · exact same.createdAt ▸ (olds pk member).2 old was (same.pk.trans key)
    · exact absurd (olds pk member).1 (key ▸ fresh)
  cases phase with
  | counted earlier total => exact takes
  | selected total batchPks => exact keys batchPks takes
  | deleting total batchPks rest => exact ⟨keys batchPks takes.1, takes.2⟩
  | ended => trivial

theorem cleanups_of_step {now : Time}
    (invariant : BlobInvariant settings retentionHours start (now - hours settings.ttlHours)
      actions world) (notAfter : action.NotAfter now) {number : Nat} {phase : FileCleanupPhase}
    (found : next.fileCleanups[number]? = some phase) :
    phase.TakesOld (now - hours settings.ttlHours) next := by
  cases step_fileCleanup_origin stepped found with
  | kept same => exact (invariant.cleanups number phase same).step stepped
  | ended is => rw [is]; trivial
  | counted later total is shape =>
      subst is shape
      exact Int.sub_le_sub_right (notAfter later rfl) _
  | selected earlier total was shape =>
      have ordered : earlier ≤ now - hours settings.ttlHours :=
        invariant.cleanups number _ was
      have takes : (FileCleanupPhase.selected total (selectExpired earlier world.files)).TakesOld
          (now - hours settings.ttlHours) world := by
        intro pk member
        have listed := (List.mem_insertionSort _).mp (List.mem_of_mem_take member)
        obtain ⟨expired, among, rfl⟩ := List.mem_map.mp listed
        obtain ⟨there, old⟩ := List.mem_filter.mp among
        refine ⟨invariant.issued (Table.mem_keys_of_mem there), ?_⟩
        intro row rowThere same
        obtain rfl := Table.eq_of_key_eq rowThere there same
        exact (of_decide_eq_true old).trans_le ordered
      exact shape ▸ takes.step stepped
  | read total batchPks rest was among shape =>
      have selected : (FileCleanupPhase.selected total batchPks).TakesOld
          (now - hours settings.ttlHours) world := invariant.cleanups number _ was
      have takes : (FileCleanupPhase.deleting total batchPks rest).TakesOld
          (now - hours settings.ttlHours) world :=
        ⟨selected, fun upload member => (among upload member).2⟩
      exact shape ▸ takes.step stepped
  | passed total batchPks upload rest was shape =>
      have before : (FileCleanupPhase.deleting total batchPks (upload :: rest)).TakesOld
          (now - hours settings.ttlHours) world := invariant.cleanups number _ was
      have takes : (FileCleanupPhase.deleting total batchPks rest).TakesOld
          (now - hours settings.ttlHours) world :=
        ⟨before.1, fun other member => before.2 other (List.mem_cons_of_mem _ member)⟩
      exact shape ▸ takes.step stepped

/-- Before its file has expired, no cleanup comes to a blob whose name no other file has. -/
theorem HasBlob.step (has : HasBlob world old)
    (invariant : BlobInvariant settings retentionHours start cutoff actions world)
    (unnamed : action.StartsUnnamed) (member : old ∈ world.files.rows) (same : old.SameFile row)
    (named : row.file ≠ "") (unexpired : cutoff ≤ row.createdAt) : HasBlob next row := by
  obtain ⟨blob, stored, name, hash⟩ := has.blob
  constructor
  · have hashed : row.status = .stored → row.sha256 = hex (Sha256.digest blob.content) := by
      intro status
      rcases same.stored status with before | uploading
      · exact same.sha256 ▸ hash before
      · exact absurd (same.file ▸ invariant.uploading old member uploading) named
    rcases step_storage stepped with kept | ⟨number, total, batchPks, upload, rest, was, _, gone⟩
    · exact ⟨blob, kept stored, name.trans same.file, hashed⟩
    · have takes : (FileCleanupPhase.deleting total batchPks (upload :: rest)).TakesOld cutoff
          world := invariant.cleanups number _ was
      have other : blob.name ≠ upload.file := by
        intro taken
        have key : upload.pk = old.pk :=
          has.only upload (.inr ⟨number, total, batchPks, _, was, List.mem_cons_self⟩)
            (taken.symm.trans name)
        have expired := (takes.1 upload.pk (takes.2 upload List.mem_cons_self)).2 old member
          key.symm
        exact absurd (same.createdAt ▸ unexpired) (not_le.mpr expired)
      refine ⟨blob, ?_, name.trans same.file, hashed⟩
      rw [gone]
      exact Table.mem_deleteWhere.mpr ⟨stored, decide_eq_false other⟩
  · intro other atHand taken
    rcases step_atHand stepped atHand with ⟨earlier, was, pk, file⟩ | ⟨call, rfl, origin⟩
    · exact (pk.symm.trans (has.only earlier was (file.trans (taken.trans same.file.symm)))).trans
        same.pk
    · cases origin with
      | kept earlier was sameOther =>
          exact (sameOther.pk.symm.trans (has.only earlier (.inl was)
            (sameOther.file.trans (taken.trans same.file.symm)))).trans same.pk
      | started is status =>
          exact absurd (taken.symm.trans (unnamed other (congrArg _ is))) named
      | created given input user file batch is shape saved fresh =>
          rw [shape, file_createdRow] at taken
          exact absurd (Table.mem_keys.mpr ⟨blob, stored, name.trans (same.file.trans taken.symm)⟩)
            fresh

variable (ran : (expiry settings retentionHours).run start actions = some world)
include ran

/-- A file that is created has its blob, and its name for itself unless another one has it. -/
theorem created_hasBlob {given : Settings} {input : UploadInput} {user : Option Nat}
    {file : UploadedFile} {batch : Option Uuid}
    (is : action = .portal (.createUploadFile given input user file batch))
    (shape : row = createdRow given input user file batch)
    (blob : next.state.storage.rows = world.state.storage.rows ++
      [⟨input.blobName, file.content⟩]) (named : row.file ≠ "") (unnamed : action.StartsUnnamed) :
    NameReused settings retentionHours start (actions ++ [action]) row ∨ HasBlob next row := by
  have name : input.blobName = row.file := by rw [shape, file_createdRow]
  have key : input.pk = row.pk := by rw [shape, createdRow_pk]
  by_cases taken : ∃ other, world.AtHand other ∧ other.file = row.file
  · subst is
    exact .inl ⟨world, given, input, user, file, batch, takes_last ran, key, name, taken⟩
  · refine .inr ⟨⟨⟨input.blobName, file.content⟩, ?_, name, ?_⟩, ?_⟩
    · rw [blob]
      exact List.mem_append_right _ List.mem_cons_self
    · intro stored
      rw [shape] at stored ⊢
      exact sha256_createdRow stored
    · intro other atHand same
      rcases step_atHand stepped atHand with ⟨earlier, was, _, file⟩ | ⟨call, isCall, origin⟩
      · exact absurd ⟨earlier, was, file.trans same⟩ taken
      · subst isCall
        cases origin with
        | kept earlier was sameOther =>
            exact absurd ⟨earlier, .inl was, sameOther.file.trans same⟩ taken
        | started started _ =>
            exact absurd (same.symm.trans (unnamed other (congrArg _ started))) named
        | created _ _ _ _ _ isOther shapeOther _ _ =>
            cases is.symm.trans (congrArg _ isOther)
            rw [shapeOther, shape]

theorem BlobInvariant.step {now : Time}
    (invariant : BlobInvariant settings retentionHours start (now - hours settings.ttlHours)
      actions world) (notAfter : action.NotAfter now) (unnamed : action.StartsUnnamed) :
    BlobInvariant settings retentionHours start (now - hours settings.ttlHours)
      (actions ++ [action]) next := by
  refine ⟨filesIssued_step invariant.issued stepped, ?_,
    fun number phase found => cleanups_of_step stepped invariant notAfter found, ?_⟩
  · intro row member uploading
    rcases step_upload_origin stepped member with ⟨old, was, same⟩ | ⟨call, rfl, origin, _⟩
    · exact same.file ▸ invariant.uploading old was (same.uploading uploading)
    · cases origin with
      | kept old was same =>
          exact same.file ▸ invariant.uploading old was (same.uploading uploading)
      | started is _ => exact unnamed row (congrArg _ is)
      | created given input user file batch _ shape =>
          rw [shape] at uploading
          rcases createdRow_status given input user file batch with stored | failed
          · rw [stored] at uploading
            cases uploading
          · rw [failed] at uploading
            cases uploading
  · intro row member named unexpired
    have continues : ∀ old ∈ world.files.rows, old.SameFile row →
        NameReused settings retentionHours start (actions ++ [action]) row ∨
          HasBlob next row := by
      intro old was same
      rcases invariant.rows old was (same.file ▸ named) (same.createdAt ▸ unexpired) with
        reused | has
      · exact .inl ((reused.of_same same).append _)
      · exact .inr (has.step stepped invariant unnamed was same named unexpired)
    rcases step_upload_origin stepped member with ⟨old, was, same⟩ | ⟨call, is, origin, _⟩
    · exact continues old was same
    · cases origin with
      | kept old was same => exact continues old was same
      | started started _ =>
          exact absurd (unnamed row (is.trans (congrArg _ started))) named
      | created given input user file batch created shape blob _ =>
          exact created_hasBlob stepped ran (is.trans (congrArg _ created)) shape blob named
            unnamed

end Step

/-- The invariant holds in every interleaving that has not gone on after `now`. -/
theorem BlobInvariant.of_run {settings : Settings} {retentionHours : Int} {state : UploadState}
    (empty : state.database.files.rows = []) {now : Time} {actions : List ExpiryAction}
    (early : ∀ action ∈ actions, action.NotAfter now)
    (unnamed : ∀ action ∈ actions, action.StartsUnnamed) {world : ExpiryWorld}
    (ran : (expiry settings retentionHours).run (.init state) actions = some world) :
    BlobInvariant settings retentionHours (.init state) (now - hours settings.ttlHours) actions
      world := by
  have carried : (∀ action ∈ actions, action.NotAfter now ∧ action.StartsUnnamed) →
      BlobInvariant settings retentionHours (.init state) (now - hours settings.ttlHours) actions
        world := by
    refine run_induction (fun past world =>
      (∀ action ∈ past, action.NotAfter now ∧ action.StartsUnnamed) →
        BlobInvariant settings retentionHours (.init state) (now - hours settings.ttlHours) past
          world) ?_ ?_ ran
    · have none : ∀ row, row ∉ (ExpiryWorld.init state).files.rows := by
        intro row member
        change row ∈ state.database.files.rows at member
        rw [empty] at member
        cases member
      refine fun _ => ⟨List.Subset.refl _, fun row member => absurd member (none row), ?_,
        fun row member => absurd member (none row)⟩
      intro number phase found
      cases found
    · intro past action middle next reached stepped ih all
      obtain ⟨notAfter, startsUnnamed⟩ := all action (List.mem_append_right _ List.mem_cons_self)
      have before := ih fun other member => all other (List.mem_append_left _ member)
      exact before.step stepped reached notAfter startsUnnamed
  exact carried fun action member => ⟨early action member, unnamed action member⟩

/-- In every interleaving: a file that has not expired has its blob in storage, and a STORED one
has the hash of that blob, unless the file was given the name of another file that was still in
the database or that a cleanup still had at hand. -/
theorem unexpired_files_keep_blobs {settings : Settings} {retentionHours : Int}
    {state : UploadState} (empty : state.database.files.rows = []) {now : Time}
    {actions : List ExpiryAction} (early : ∀ action ∈ actions, action.NotAfter now)
    (unnamed : ∀ action ∈ actions, action.StartsUnnamed) {world : ExpiryWorld}
    (ran : (expiry settings retentionHours).run (.init state) actions = some world)
    {row : UploadFile} (member : row ∈ world.files.rows) (named : row.file ≠ "")
    (unexpired : now - hours settings.ttlHours ≤ row.createdAt) :
    NameReused settings retentionHours (.init state) actions row ∨
      ∃ blob ∈ world.state.storage.rows, blob.name = row.file ∧
        (row.status = .stored → row.sha256 = hex (Sha256.digest blob.content)) := by
  have invariant := BlobInvariant.of_run empty early unnamed ran
  rcases invariant.rows row member named unexpired with reused | has
  · exact .inl reused
  · exact .inr has.blob

namespace Sample

def uploadOf (number : Nat) (now : Time) (blobName : String) : ExpiryAction :=
  .portal (.createUploadFile settings
    { allGoesThrough with now, pk := uuid number, eventPk := uuid (number + 10), blobName }
    none report none)

/-- The cleanup deletes the first blob and raises at the second one, so both rows stay. The name
that is free again goes to the third file, and the next cleanup deletes its blob. -/
def nameFreed : List ExpiryAction :=
  [uploadOf 0 0 "uploads/report.csv", uploadOf 1 0 "uploads/report_1.csv",
    .countExpired (hours 30), .selectExpired 0, .readExpired 0 .stored,
    .deleteBlob 0 fun _ => false, .deleteBlob 0 fun _ => true,
    uploadOf 2 (hours 30) "uploads/report.csv",
    .countExpired (hours 36), .selectExpired 1, .readExpired 1 .stored,
    .deleteBlob 1 fun _ => false]

end Sample

theorem unexpired_files_keep_blobs_nameFreed : ∃ world row,
    (expiry Sample.defaults 168).run (.init .empty) Sample.nameFreed = some world ∧
      row ∈ world.files.rows ∧ row.createdAt = hours 30 ∧
      (∀ blob ∈ world.state.storage.rows, blob.name ≠ row.file) ∧
      NameReused Sample.defaults 168 (.init .empty) Sample.nameFreed row := by
  have lost : ((expiry Sample.defaults 168).run (.init .empty) Sample.nameFreed).any (fun world =>
      world.files.rows.any fun row => row.file ≠ "" ∧ row.createdAt = hours 30 ∧
        ∀ blob ∈ world.state.storage.rows, blob.name ≠ row.file) = true := by
    decide +kernel
  obtain ⟨world, ran, found⟩ := (Option.any_eq_true _ _).mp lost
  obtain ⟨row, member, gone⟩ := List.any_eq_true.mp found
  obtain ⟨named, created, noBlob⟩ := of_decide_eq_true gone
  have unnamed : ∀ action ∈ Sample.nameFreed, action.StartsUnnamed := by
    rintro action member upload rfl
    simp [Sample.nameFreed, Sample.uploadOf] at member
  have unexpired : hours 36 - hours Sample.defaults.ttlHours ≤ row.createdAt := by
    rw [created]
    decide
  rcases unexpired_files_keep_blobs rfl (by decide) unnamed ran member named unexpired with
    reused | ⟨blob, stored, name, _⟩
  · exact ⟨world, row, ran, member, created, noBlob, reused⟩
  · exact absurd name (noBlob blob stored)

end Doorito.Portal
