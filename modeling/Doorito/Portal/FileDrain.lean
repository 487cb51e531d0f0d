import Doorito.Foundation.Blocks
import Doorito.Portal.CleanupReport

/-! How repeated cleanups get through the expired files. The sorted keys are cut into blocks of
the batch size, and each run takes the next. A blob that cannot be deleted holds up its block:
the rows of the block stay, though other blobs of the block can go, and no file behind it is
ever deleted. -/

set_option autoImplicit false

namespace Doorito.Portal

open Foundation Common

/-- A run whose clock reading and TTL give the cutoff, and whose blob deletions fail for these
files. -/
structure FileCleanup (cutoff : Time) (raises : Uuid → Bool) where
  ttlHours : Int
  input : CleanupInput
  reaches : input.now - hours ttlHours = cutoff
  fails : input.raises = raises

/-- The keys of the expired files, in primary-key order. -/
def expiredInOrder (cutoff : Time) (files : FileTable) : List Uuid :=
  (expiredKeys cutoff files).insertionSort (· ≤ ·)

/-- The file of the key has a blob that cannot be deleted. -/
def stuckKey (raises : Uuid → Bool) (files : FileTable) (pk : Uuid) : Bool :=
  files.rows.any fun upload => upload.pk = pk ∧ upload.file ≠ "" ∧ raises pk = true

variable {cutoff : Time} {raises : Uuid → Bool}

def FileCleanup.run (cleanup : FileCleanup cutoff raises) (state : UploadState) :
    UploadState × Option CleanupResult :=
  cleanupExpiredUploadFiles cleanup.ttlHours cleanup.input state

/-- The runs one after the other, with no other writer. -/
def fileCleanups (cleanups : List (FileCleanup cutoff raises)) (state : UploadState) :
    UploadState :=
  cleanups.foldl (fun state cleanup => (cleanup.run state).1) state

/-! ## The files that are left -/

section Left

variable {before middle left : Database} {chosen first second : List Uuid}

theorem expiredInOrder_perm (files : FileTable) :
    (expiredInOrder cutoff files).Perm (expiredKeys cutoff files) :=
  List.perm_insertionSort _ _

theorem expiredKeys_nodup (cutoff : Time) (files : FileTable) : (expiredKeys cutoff files).Nodup :=
  files.unique.sublist (List.filter_sublist.map _)

/-- Files that go in two steps are gone together. -/
theorem Database.WithoutFiles.trans (one : before.WithoutFiles first middle)
    (two : middle.WithoutFiles second left) : before.WithoutFiles (first ++ second) left := by
  refine ⟨?_, ?_, ?_, two.batches.trans one.batches, two.events.trans one.events⟩
  · rw [two.files, one.files, List.filter_filter]
    exact List.filter_congr fun upload _ => by simp [Bool.and_comm]
  · rw [two.sessions, one.sessions, List.filter_filter]
    exact List.filter_congr fun session _ => by simp [Bool.and_comm]
  · rw [two.parts, one.parts, List.filter_filter]
    refine List.filter_congr fun part _ => ?_
    have fewer : left.sessions.keys ⊆ middle.sessions.keys := by
      rw [Table.keys, two.sessions]
      exact (List.filter_sublist.map _).subset
    by_cases kept : part.session ∈ left.sessions.keys
    · simp [kept, fewer kept]
    · simp [kept]

/-- The first block of the keys is gone. -/
theorem expiredInOrder_of_withoutFiles
    (removed : before.WithoutFiles (selectExpired cutoff before.files) left) :
    expiredInOrder cutoff left.files =
      (expiredInOrder cutoff before.files).drop expiredBatchSize := by
  have kept := insertionSort_filter_not_mem_take (fun first second : Uuid => first ≤ second)
    expiredBatchSize (expiredKeys_nodup cutoff before.files)
  rw [expiredInOrder, expiredInOrder, ← kept, expiredKeys, removed.files, List.filter_filter,
    expiredKeys, List.filter_map, List.filter_filter]
  congr 2
  exact List.filter_congr fun upload _ => Bool.and_comm ..

end Left

/-! ## One run -/

section Run

variable (cleanup : FileCleanup cutoff raises) {state : UploadState}

theorem rows_deleteBlob {upload : UploadFile} {storage left : Storage}
    (deleted : deleteBlob raises upload storage = some left) :
    left.rows ⊆ storage.rows ∧
      ∀ blob ∈ storage.rows, blob ∉ left.rows →
        upload.file = blob.name ∧ upload.file ≠ "" ∧ raises upload.pk = false := by
  unfold deleteBlob at deleted
  split_ifs at deleted with unnamed raised
  · cases deleted
    exact ⟨List.Subset.refl _, fun blob member gone => absurd member gone⟩
  · cases deleted
    refine ⟨List.filter_sublist.subset, ?_⟩
    intro blob member gone
    refine ⟨?_, unnamed, Bool.eq_false_iff.mpr raised⟩
    by_contra other
    exact gone (Table.mem_deleteWhere.mpr ⟨member, decide_eq_false (Ne.symm other)⟩)

/-- The loop adds no blob, and each that it deletes is one of a file that it can delete. -/
theorem rows_deleteBlobs (uploads : List UploadFile) (storage : Storage) :
    (deleteBlobs raises uploads storage).1.rows ⊆ storage.rows ∧
      ∀ blob ∈ storage.rows, blob ∉ (deleteBlobs raises uploads storage).1.rows →
        ∃ upload ∈ uploads,
          upload.file = blob.name ∧ upload.file ≠ "" ∧ raises upload.pk = false := by
  induction uploads generalizing storage with
  | nil => exact ⟨List.Subset.refl _, fun blob member gone => absurd member gone⟩
  | cons upload rest ih =>
      rw [deleteBlobs]
      cases deleted : deleteBlob raises upload storage with
      | none => exact ⟨List.Subset.refl _, fun blob member gone => absurd member gone⟩
      | some left =>
          obtain ⟨fewer, here⟩ := rows_deleteBlob deleted
          obtain ⟨later, there⟩ := ih left
          refine ⟨List.Subset.trans later fewer, ?_⟩
          intro blob member gone
          by_cases stays : blob ∈ left.rows
          · obtain ⟨other, listed, named⟩ := there blob stays gone
            exact ⟨other, List.mem_cons_of_mem _ listed, named⟩
          · exact ⟨upload, List.mem_cons_self, here blob member stays⟩

/-- Whether or not the run ends, it deletes blobs of its batch only. -/
theorem rows_run :
    (cleanup.run state).1.storage.rows ⊆ state.storage.rows ∧
      ∀ blob ∈ state.storage.rows, blob ∉ (cleanup.run state).1.storage.rows →
        ∃ upload ∈ state.database.files.rows,
          upload.pk ∈ selectExpired cutoff state.database.files ∧
            upload.file = blob.name ∧ upload.file ≠ "" ∧ raises upload.pk = false := by
  by_cases empty : state.database.files.count
      (·.isExpired (cleanup.input.now - hours cleanup.ttlHours)) = 0
  · rw [FileCleanup.run, cleanupExpiredUploadFiles, if_pos empty]
    exact ⟨List.Subset.refl _, fun blob member gone => absurd member gone⟩
  · have ran : (cleanup.run state).1.storage = (deleteBlobs cleanup.input.raises
        (cleanup.input.order.arrange (expiredBatch cleanup.ttlHours cleanup.input.now
          state.database)) state.storage).1 := by
      rw [FileCleanup.run, cleanup_of_expired empty]
      split_ifs <;> rfl
    rw [ran, cleanup.fails]
    obtain ⟨fewer, batch⟩ := rows_deleteBlobs (cleanup.input.order.arrange
      (expiredBatch cleanup.ttlHours cleanup.input.now state.database)) state.storage
    refine ⟨fewer, ?_⟩
    intro blob member gone
    obtain ⟨upload, listed, named⟩ := batch blob member gone
    obtain ⟨stored, selected⟩ := List.mem_filter.mp (mem_arranged.mp listed)
    rw [cleanup.reaches] at selected
    exact ⟨upload, stored, of_decide_eq_true selected, named⟩

theorem keys_run_subset : (cleanup.run state).1.storage.keys ⊆ state.storage.keys :=
  List.map_subset _ (rows_run cleanup).1

/-- A run is held up if a file of its batch cannot be deleted. -/
theorem any_stuckKey_iff {files : FileTable} (stored : state.database.files.rows ⊆ files.rows) :
    ((expiredInOrder cutoff state.database.files).take expiredBatchSize).any
        (stuckKey raises files) = true ↔
      ∃ upload ∈ expiredBatch cleanup.ttlHours cleanup.input.now state.database,
        cleanup.input.Undeletable upload := by
  have same : selectExpired (cleanup.input.now - hours cleanup.ttlHours) state.database.files =
      (expiredInOrder cutoff state.database.files).take expiredBatchSize := by
    rw [cleanup.reaches]
    rfl
  simp only [List.any_eq_true, stuckKey, decide_eq_true_iff, expiredBatch, List.mem_filter, same,
    CleanupInput.Undeletable, cleanup.fails]
  constructor
  · intro held
    obtain ⟨pk, selected, upload, member, rfl, named, raised⟩ := held
    have known : upload.pk ∈ state.database.files.keys := by
      have listed := (expiredInOrder_perm _).subset (List.mem_of_mem_take selected)
      exact (List.filter_sublist.map _).subset listed
    obtain ⟨row, rowMember, key⟩ := Table.mem_keys.mp known
    obtain rfl := Table.eq_of_key_eq (stored rowMember) member key
    exact ⟨row, ⟨rowMember, selected⟩, named, raised⟩
  · intro held
    obtain ⟨upload, ⟨member, selected⟩, named, raised⟩ := held
    exact ⟨upload.pk, selected, upload, stored member, rfl, named, raised⟩

theorem run_of_stuck {files : FileTable} (stored : state.database.files.rows ⊆ files.rows)
    (stuck : ((expiredInOrder cutoff state.database.files).take expiredBatchSize).any
      (stuckKey raises files) = true) :
    (cleanup.run state).1.database = state.database ∧ (cleanup.run state).2 = none := by
  obtain ⟨upload, member, undeletable⟩ := (any_stuckKey_iff cleanup stored).mp stuck
  refine ⟨database_of_undeletable member undeletable, ?_⟩
  simp only [FileCleanup.run, cleanupExpiredUploadFiles, if_neg (count_of_mem member)]
  split
  · rfl
  · next storage ended =>
    have done : (deleteBlobs cleanup.input.raises (cleanup.input.order.arrange
        (expiredBatch cleanup.ttlHours cleanup.input.now state.database)) state.storage).2 =
        true := by
      rw [expiredBatch, ended]
    exact absurd undeletable
      ((deleteBlobs_true_iff state.storage).mp done upload (mem_arranged.mpr member))

theorem run_of_free {files : FileTable} (stored : state.database.files.rows ⊆ files.rows)
    (free : ((expiredInOrder cutoff state.database.files).take expiredBatchSize).any
      (stuckKey raises files) = false) :
    state.database.WithoutFiles (selectExpired cutoff state.database.files)
        (cleanup.run state).1.database ∧
      (cleanup.run state).2 ≠ none ∧
      ∀ upload ∈ state.database.files.rows,
        upload.pk ∈ selectExpired cutoff state.database.files →
          upload.file = "" ∨ upload.file ∉ (cleanup.run state).1.storage.keys := by
  have deletable : ∀ upload ∈ expiredBatch cleanup.ttlHours cleanup.input.now state.database,
      ¬ cleanup.input.Undeletable upload := by
    intro upload member undeletable
    rw [(any_stuckKey_iff cleanup stored).mpr ⟨upload, member, undeletable⟩] at free
    cases free
  obtain ⟨left, removed, ran⟩ := cleanup_of_deletable deletable
  rw [cleanup.reaches] at removed
  refine ⟨?_, ?_, ?_⟩
  · rw [FileCleanup.run, ran]
    exact removed
  · rw [FileCleanup.run, ran]
    exact nofun
  · intro upload member selected
    refine (gone_of_deletable deletable ?_).2
    rw [expiredBatch, cleanup.reaches]
    exact List.mem_filter.mpr ⟨member, decide_eq_true selected⟩

end Run

/-! ## Runs one after the other -/

section Runs

variable (state : UploadState)

/-- The keys that so many runs delete: whole blocks, up to the first that holds a key of a file
that cannot be deleted. -/
def deletedKeys (cutoff : Time) (raises : Uuid → Bool) (files : FileTable) (runs : Nat) :
    List Uuid :=
  (expiredInOrder cutoff files).take (expiredBatchSize *
    blocksTaken expiredBatchSize (stuckKey raises files) (expiredInOrder cutoff files) runs)

/-- The keys of the blocks that so many runs come to. -/
def triedKeys (cutoff : Time) (raises : Uuid → Bool) (files : FileTable) (runs : Nat) :
    List Uuid :=
  (expiredInOrder cutoff files).take (expiredBatchSize *
    blocksTried expiredBatchSize (stuckKey raises files) (expiredInOrder cutoff files) runs)

/-- What so many runs leave of a state. -/
structure DrainedBy (cutoff : Time) (raises : Uuid → Bool) (before : UploadState) (runs : Nat)
    (left : UploadState) : Prop where
  waiting : expiredInOrder cutoff left.database.files =
    (takeBlock expiredBatchSize (stuckKey raises before.database.files))^[runs]
      (expiredInOrder cutoff before.database.files)
  removed : before.database.WithoutFiles
    (deletedKeys cutoff raises before.database.files runs) left.database
  blobs : ∀ upload ∈ before.database.files.rows,
    upload.pk ∈ deletedKeys cutoff raises before.database.files runs →
      upload.file = "" ∨ upload.file ∉ left.storage.keys
  noneAdded : left.storage.rows ⊆ before.storage.rows
  othersKept : ∀ blob ∈ before.storage.rows, blob ∉ left.storage.rows →
    ∃ upload ∈ before.database.files.rows, upload.file = blob.name ∧
      stuckKey raises before.database.files upload.pk = false ∧
      upload.pk ∈ triedKeys cutoff raises before.database.files runs

theorem DrainedBy.none : DrainedBy cutoff raises state 0 state := by
  have nothing : deletedKeys cutoff raises state.database.files 0 = [] := by
    simp [deletedKeys, blocksTaken]
  refine ⟨rfl, nothing ▸ withoutFiles_nil state.database, ?_, List.Subset.refl _, ?_⟩
  · rw [nothing]
    intro upload _ listed
    cases listed
  · intro blob member gone
    exact absurd member gone

variable {state} {left : UploadState} {runs : Nat}

theorem DrainedBy.stored (drained : DrainedBy cutoff raises state runs left) :
    left.database.files.rows ⊆ state.database.files.rows := by
  rw [drained.removed.files]
  exact List.filter_sublist.subset

/-- One more run deletes the next block unless it is held up. -/
theorem DrainedBy.deletedKeys_succ (drained : DrainedBy cutoff raises state runs left) :
    deletedKeys cutoff raises state.database.files (runs + 1) =
      deletedKeys cutoff raises state.database.files runs ++
        if ((expiredInOrder cutoff left.database.files).take expiredBatchSize).any
            (stuckKey raises state.database.files) then []
        else selectExpired cutoff left.database.files := by
  simp only [deletedKeys, blocksTaken_succ (show 0 < expiredBatchSize by decide)]
  rw [← drained.waiting]
  split_ifs
  · rw [Nat.add_zero, List.append_nil]
  · rw [Nat.mul_succ, List.take_add, ← iterate_takeBlock (by decide), ← drained.waiting]
    rfl

theorem triedKeys_subset_succ (files : FileTable) :
    triedKeys cutoff raises files runs ⊆ triedKeys cutoff raises files (runs + 1) :=
  List.take_subset_take_left _ (Nat.mul_le_mul_left _ (blocksTried_le_succ runs))

/-- The next run comes to the files that it selects. -/
theorem DrainedBy.selected_subset (drained : DrainedBy cutoff raises state runs left) :
    selectExpired cutoff left.database.files ⊆
      triedKeys cutoff raises state.database.files (runs + 1) := by
  have front : selectExpired cutoff left.database.files =
      (expiredInOrder cutoff left.database.files).take expiredBatchSize := rfl
  rw [front, drained.waiting, iterate_takeBlock (by decide), triedKeys, blocksTried_succ,
    Nat.mul_succ, List.take_add]
  exact List.subset_append_right _ _

/-- A blob that goes in the next run is one of a file that the run can delete. -/
theorem DrainedBy.othersKept_succ (drained : DrainedBy cutoff raises state runs left)
    (cleanup : FileCleanup cutoff raises) :
    ∀ blob ∈ state.storage.rows, blob ∉ (cleanup.run left).1.storage.rows →
      ∃ upload ∈ state.database.files.rows, upload.file = blob.name ∧
        stuckKey raises state.database.files upload.pk = false ∧
        upload.pk ∈ triedKeys cutoff raises state.database.files (runs + 1) := by
  intro blob member gone
  by_cases stays : blob ∈ left.storage.rows
  · obtain ⟨upload, stored, selected, named, _, deletable⟩ := (rows_run cleanup).2 blob stays gone
    refine ⟨upload, drained.stored stored, named, ?_, drained.selected_subset selected⟩
    refine List.any_eq_false.mpr fun other otherMember held => ?_
    obtain ⟨same, _, raised⟩ := of_decide_eq_true held
    rw [deletable] at raised
    cases raised
  · obtain ⟨upload, stored, named, free, tried⟩ := drained.othersKept blob member stays
    exact ⟨upload, stored, named, free, triedKeys_subset_succ _ tried⟩

theorem DrainedBy.step (drained : DrainedBy cutoff raises state runs left)
    (cleanup : FileCleanup cutoff raises) :
    DrainedBy cutoff raises state (runs + 1) (cleanup.run left).1 := by
  have next := drained.deletedKeys_succ
  have fewer := List.Subset.trans (rows_run cleanup).1 drained.noneAdded
  have others := drained.othersKept_succ cleanup
  cases stuck : ((expiredInOrder cutoff left.database.files).take expiredBatchSize).any
      (stuckKey raises state.database.files) with
  | true =>
      obtain ⟨database, _⟩ := run_of_stuck cleanup drained.stored stuck
      rw [stuck, if_pos rfl, List.append_nil] at next
      refine ⟨?_, ?_, ?_, fewer, others⟩
      · rw [Function.iterate_succ_apply', ← drained.waiting, takeBlock, if_pos stuck, database]
      · rw [next, database]
        exact drained.removed
      · rw [next]
        intro upload member listed
        exact (drained.blobs upload member listed).imp_right
          fun gone stays => gone (keys_run_subset cleanup stays)
  | false =>
      obtain ⟨removed, _, blobs⟩ := run_of_free cleanup drained.stored stuck
      rw [stuck, if_neg Bool.noConfusion] at next
      refine ⟨?_, ?_, ?_, fewer, others⟩
      · rw [Function.iterate_succ_apply', ← drained.waiting, takeBlock, if_neg (by simp [stuck])]
        exact expiredInOrder_of_withoutFiles removed
      · rw [next]
        exact drained.removed.trans removed
      · intro upload member listed
        rw [next, List.mem_append] at listed
        by_cases before : upload.pk ∈ deletedKeys cutoff raises state.database.files runs
        · exact (drained.blobs upload member before).imp_right
            fun gone stays => gone (keys_run_subset cleanup stays)
        · have here : upload ∈ left.database.files.rows := by
            rw [drained.removed.files]
            exact List.mem_filter.mpr ⟨member, decide_eq_true before⟩
          exact blobs upload here (listed.resolve_left before)

theorem fileCleanups_drained (cleanups : List (FileCleanup cutoff raises)) :
    DrainedBy cutoff raises state cleanups.length (fileCleanups cleanups state) := by
  induction cleanups using List.reverseRecOn with
  | nil => exact .none state
  | append_singleton earlier last ih =>
      rw [fileCleanups, List.foldl_append, List.length_append]
      exact ih.step last

end Runs

/-- Runs at one cutoff over which the same blobs cannot be deleted, from any state. Together
they delete whole blocks of the sorted keys of the expired files: the rows of these files, their
sessions and parts and no other row, and their blobs. Each run takes the next block until one
holds a file whose blob cannot be deleted: from then on every run raises, and the rows of that
block and of all later ones stay. Of the blobs of that block a run that raises may delete those
that can be deleted, and no blob of another file goes. -/
theorem stuck_file_blocks_the_cleanup (state : UploadState)
    (cleanups : List (FileCleanup cutoff raises)) :
    let keys := expiredInOrder cutoff state.database.files
    let stuck := stuckKey raises state.database.files
    let left := fileCleanups cleanups state
    state.database.WithoutFiles
        (keys.take (expiredBatchSize *
          if keys.any stuck then min cleanups.length (clearLength stuck keys / expiredBatchSize)
          else cleanups.length)) left.database ∧
      (∀ upload ∈ state.database.files.rows, upload.pk ∉ left.database.files.keys →
        upload.file = "" ∨ upload.file ∉ left.storage.keys) ∧
      left.storage.rows ⊆ state.storage.rows ∧
      (∀ blob ∈ state.storage.rows, blob ∉ left.storage.rows →
        ∃ upload ∈ state.database.files.rows,
          upload.file = blob.name ∧ stuck upload.pk = false ∧
          upload.pk ∈ keys.take (expiredBatchSize *
            if keys.any stuck then
              min cleanups.length (clearLength stuck keys / expiredBatchSize + 1)
            else cleanups.length)) ∧
      ∀ earlier cleanup later, cleanups = earlier ++ cleanup :: later →
        ((cleanup.run (fileCleanups earlier state)).2 = none ↔
          keys.any stuck = true ∧ clearLength stuck keys / expiredBatchSize ≤ earlier.length) := by
  intro keys stuck left
  have drained : DrainedBy cutoff raises state cleanups.length left :=
    fileCleanups_drained cleanups
  refine ⟨drained.removed, ?_, drained.noneAdded, drained.othersKept, ?_⟩
  · intro upload member gone
    refine drained.blobs upload member ?_
    by_contra kept
    apply gone
    apply Table.mem_keys_of_mem
    rw [drained.removed.files]
    exact List.mem_filter.mpr ⟨member, decide_eq_true kept⟩
  · intro earlier cleanup later _
    have reached : DrainedBy cutoff raises state earlier.length (fileCleanups earlier state) :=
      fileCleanups_drained earlier
    rw [← any_take_iterate_iff (by decide), ← reached.waiting]
    cases held : ((expiredInOrder cutoff (fileCleanups earlier state).database.files).take
        expiredBatchSize).any (stuckKey raises state.database.files) with
    | true => exact iff_of_true (run_of_stuck cleanup reached.stored held).2 rfl
    | false => exact iff_of_false (run_of_free cleanup reached.stored held).2.1 Bool.noConfusion

/-! ## Two runs that are held up -/

namespace Sample

def heldUp : FileCleanup (hours 25 - hours 24) secondFails.raises := ⟨24, secondFails, rfl, rfl⟩

end Sample

/-- The second file is stuck. Both runs raise, both rows and the second blob stay, and the
first blob is gone. -/
theorem stuck_file_blocks_the_cleanup_twoExpired :
    let cleanups := [Sample.heldUp, Sample.heldUp]
    let left := fileCleanups cleanups Sample.twoExpired
    left.database.files.rows = Sample.twoExpired.database.files.rows ∧
      left.storage.keys = ["uploads/b.csv"] ∧
      (Sample.heldUp.run Sample.twoExpired).2 = none ∧
      (Sample.heldUp.run (fileCleanups [Sample.heldUp] Sample.twoExpired)).2 = none := by
  intro cleanups left
  obtain ⟨removed, _, _, _, raised⟩ := stuck_file_blocks_the_cleanup Sample.twoExpired cleanups
  refine ⟨?_, ?_, ?_, ?_⟩
  · exact removed.files
  · decide
  · exact (raised [] Sample.heldUp [Sample.heldUp] rfl).mpr (by decide)
  · exact (raised [Sample.heldUp] Sample.heldUp [] rfl).mpr (by decide)

end Doorito.Portal
