import Doorito.Portal.ExpirySteps

/-! How often the expiry of a file is announced. What keeps a sweep from announcing a file
again is the unique constraint on events. So a file is announced once as long as its notice
is in the table whenever a sweep can still come to the file. -/

set_option autoImplicit false

namespace Doorito.Portal

open Foundation Common

/-- A sweep in progress has read the file and not come to it yet. -/
def ExpiryWorld.Holds (world : ExpiryWorld) (file : Uuid) : Prop :=
  ∃ sweep rest, .announcing sweep rest ∈ world.sweeps ∧ ∃ upload ∈ rest, upload.pk = file

/-- The file is STORED, or a sweep holds it. -/
def ExpiryWorld.CanAnnounce (world : ExpiryWorld) (file : Uuid) : Prop :=
  (∃ row ∈ world.files.rows, row.pk = file ∧ row.status = .stored) ∨ world.Holds file

/-- No file has two events of type `file.expiring`, whether they are still there or not. -/
def NoticedOnce (world : ExpiryWorld) : Prop :=
  ∀ file, world.announced.count file ≤ 1

/-- An event cleanup deletes no notice of a file that a sweep can still come to. -/
def KeepsNotices (world : ExpiryWorld) : ExpiryAction → Prop
  | .outbox (.cleanupDelete cleanup) =>
      ∀ totalTerminal batchPks,
        world.cleanups[cleanup]? = some (.selected totalTerminal batchPks) →
          ∀ event ∈ world.events.rows, event.pk ∈ batchPks →
            ∀ file, IsNoticeOf file event → ¬ world.CanAnnounce file
  | _ => True

/-- The file was STORED once: its key is used, and it is UPLOADING never again. -/
structure ExpiryWorld.Settled (world : ExpiryWorld) (file : Uuid) : Prop where
  issued : file ∈ world.issuedFiles
  rows : ∀ row ∈ world.files.rows, row.pk = file → row.status ≠ .uploading

structure NoticeInvariant (world : ExpiryWorld) : Prop where
  rowsIssued : world.outbox.RowsIssued
  filesIssued : world.files.keys ⊆ world.issuedFiles
  distinct : world.announced.Nodup
  settled : ∀ file, file ∈ world.announced ∨ world.Holds file → world.Settled file
  backed : ∀ file ∈ world.announced,
    (∃ event ∈ world.events.rows, IsNoticeOf file event) ∨ ¬ world.CanAnnounce file

section Step

variable {settings : Settings} {retentionHours : Int} {world next : ExpiryWorld}
  {action : ExpiryAction} {file : Uuid}

theorem mem_beginSweep {now : Time} {order : RowOrder UploadFile} {files : FileTable}
    {sweep : Sweep} {rest : List UploadFile}
    (shape : .announcing sweep rest = beginSweep settings now order files) {upload : UploadFile}
    (member : upload ∈ rest) : upload ∈ files.rows ∧ upload.status = .stored := by
  simp only [beginSweep, Sweep.goOn] at shape
  split_ifs at shape
  obtain ⟨_, rfl⟩ := SweepPhase.announcing.inj shape
  obtain ⟨row, expiring⟩ := List.mem_filter.mp ((order.perm _).mem_iff.mp member)
  simp only [UploadFile.isExpiring, decide_eq_true_eq] at expiring
  exact ⟨row, expiring.1⟩

/-- A sweep comes to hold a file only when it begins, and the file is STORED then. -/
theorem holds_of_step (issued : world.outbox.RowsIssued)
    (stepped : (expiry settings retentionHours).step world action = some next)
    (holds : next.Holds file) :
    world.Holds file ∨ ∃ row ∈ world.files.rows, row.pk = file ∧ row.status = .stored := by
  obtain ⟨sweep, rest, member, upload, among, rfl⟩ := holds
  cases step_sweep_origin issued stepped member with
  | kept old => exact .inl ⟨sweep, rest, old, upload, among, rfl⟩
  | ended sweep rest was shape => cases shape
  | begun now order shape =>
      obtain ⟨row, stored⟩ := mem_beginSweep shape among
      exact .inr ⟨upload, row, rfl, stored⟩
  | passed earlier first later was shape done =>
      simp only [Sweep.goOn] at shape
      split_ifs at shape
      obtain ⟨_, rfl⟩ := SweepPhase.announcing.inj shape
      exact .inl ⟨earlier, first :: rest, was, upload, List.mem_cons_of_mem _ among, rfl⟩

theorem ExpiryWorld.Settled.step (settled : world.Settled file)
    (stepped : (expiry settings retentionHours).step world action = some next) :
    next.Settled file := by
  refine ⟨step_issuedFiles stepped settled.issued, ?_⟩
  intro row member key uploading
  rcases step_file_origin stepped member with ⟨old, oldMember, same, status⟩ | ⟨new, _⟩
  · have kept := settled.rows old oldMember (same.trans key)
    rcases status kept with stays | failed
    · exact kept (stays.symm.trans uploading)
    · rw [uploading] at failed
      cases failed
  · exact new (key ▸ settled.issued)

/-- No step brings a settled file back before a sweep. -/
theorem canAnnounce_of_step (issued : world.outbox.RowsIssued) (settled : world.Settled file)
    (stepped : (expiry settings retentionHours).step world action = some next)
    (can : next.CanAnnounce file) : world.CanAnnounce file := by
  rcases can with ⟨row, member, key, stored⟩ | holds
  · rcases step_file_origin stepped member with ⟨old, oldMember, same, status⟩ | ⟨new, _⟩
    · rcases status (settled.rows old oldMember (same.trans key)) with stays | failed
      · exact .inl ⟨old, oldMember, same.trans key, stays.symm.trans stored⟩
      · rw [stored] at failed
        cases failed
    · exact absurd (key ▸ settled.issued) new
  · exact (holds_of_step issued stepped holds).symm

theorem filesIssued_step (issued : world.files.keys ⊆ world.issuedFiles)
    (stepped : (expiry settings retentionHours).step world action = some next) :
    next.files.keys ⊆ next.issuedFiles := by
  intro key listed
  obtain ⟨row, member, rfl⟩ := Table.mem_keys.mp listed
  rcases step_file_origin stepped member with ⟨old, oldMember, same, _⟩ | ⟨_, new⟩
  · exact step_issuedFiles stepped (issued (same ▸ Table.mem_keys_of_mem oldMember))
  · exact new

theorem settled_of_stored (issued : world.files.keys ⊆ world.issuedFiles) {row : UploadFile}
    (member : row ∈ world.files.rows) (stored : row.status = .stored) : world.Settled row.pk := by
  refine ⟨issued (Table.mem_keys_of_mem member), ?_⟩
  intro other otherMember same uploading
  obtain rfl := Table.eq_of_key_eq otherMember member same
  rw [stored] at uploading
  cases uploading

theorem NoticeInvariant.step (invariant : NoticeInvariant world)
    (condition : KeepsNotices world action)
    (stepped : (expiry settings retentionHours).step world action = some next) :
    NoticeInvariant next := by
  have issued := invariant.rowsIssued
  have stays : ∀ file ∈ world.announced,
      (∃ event ∈ next.events.rows, IsNoticeOf file event) ∨ ¬ next.CanAnnounce file := by
    intro file member
    have still := canAnnounce_of_step issued (invariant.settled file (.inl member)) stepped
    rcases invariant.backed file member with ⟨event, eventMember, notice⟩ | cannot
    · rcases step_notice_fate issued stepped eventMember notice with
        kept | ⟨cleanup, totalTerminal, batchPks, rfl, found, chosen⟩
      · exact .inl kept
      · right
        intro can
        exact condition totalTerminal batchPks found event eventMember chosen file notice
          (still can)
    · exact .inr fun can => cannot (still can)
  have settledNext : ∀ file, file ∈ world.announced ∨ next.Holds file → next.Settled file := by
    intro file once
    rcases once with old | holds
    · exact (invariant.settled file (.inl old)).step stepped
    · rcases holds_of_step issued stepped holds with before | ⟨row, member, rfl, stored⟩
      · exact (invariant.settled file (.inr before)).step stepped
      · exact (settled_of_stored invariant.filesIssued member stored).step stepped
  have rowsIssued := step_rowsIssued issued stepped
  have filesIssued := filesIssued_step invariant.filesIssued stepped
  rcases step_announced issued stepped with
    same | ⟨sweep, upload, rest, was, _, announced, first, notice⟩
  · rw [← same] at stays settledNext
    exact ⟨rowsIssued, filesIssued, same ▸ invariant.distinct, settledNext, stays⟩
  · have held : world.Holds upload.pk := ⟨sweep, _, was, upload, List.mem_cons_self, rfl⟩
    have isNew : upload.pk ∉ world.announced := by
      intro before
      rcases invariant.backed upload.pk before with ⟨event, member, noticed⟩ | cannot
      · exact first event member noticed
      · exact cannot (.inr held)
    refine ⟨rowsIssued, filesIssued, ?_, ?_, ?_⟩
    · rw [announced]
      exact List.nodup_cons.mpr ⟨isNew, invariant.distinct⟩
    · intro file once
      rw [announced, List.mem_cons] at once
      rcases once with (rfl | old) | holds
      · exact (invariant.settled upload.pk (.inr held)).step stepped
      · exact settledNext file (.inl old)
      · exact settledNext file (.inr holds)
    · intro file member
      rw [announced, List.mem_cons] at member
      rcases member with rfl | old
      · exact .inl notice
      · exact stays file old

end Step

theorem noticeInvariant_init (start : UploadState) : NoticeInvariant (.init start) := by
  refine ⟨?_, List.Subset.refl _, List.nodup_nil, ?_, ?_⟩
  · intro row member
    exact Table.mem_keys_of_mem member
  · intro file once
    rcases once with announced | ⟨_, _, none, _⟩
    · cases announced
    · cases none
  · intro file none
    cases none

/-- Under any settings and in every interleaving of any runs: if no event cleanup deletes the
notice of a file that a sweep can still come to, no file is announced twice. -/
theorem noticed_once_of_keepsNotices (settings : Settings) (retentionHours : Int)
    (start : UploadState) (actions : List ExpiryAction)
    (meets : (expiry settings retentionHours).Meets KeepsNotices (.init start) actions) :
    (expiry settings retentionHours).Always NoticedOnce (.init start) actions := by
  refine Machine.always_of_meets NoticeInvariant ?_
    (fun _ _ _ invariant condition stepped => invariant.step condition stepped)
    (noticeInvariant_init start) meets
  intro world invariant file
  exact List.nodup_iff_count_le_one.mp invariant.distinct file

/-! ## A file that is not deleted -/

namespace Sample

def defaults : Settings := { guessType := fun _ => none }

def storedFile : UploadFile := { file with file := "uploads/report.csv", status := .stored }

def oneStored : UploadState where
  database :=
    { Database.empty with
      files := ⟨[storedFile], by decide⟩
      fileBatch := by decide
      sessionFile := by decide }
  storage := ⟨[⟨"uploads/report.csv", []⟩], by decide⟩

def sweep (number : Nat) (now : Time) : List ExpiryAction :=
  [.beginSweep now .stored, .announce number ⟨now, .stored, fun _ => uuid number, id⟩]

def deliver (now : Time) : List ExpiryAction :=
  [.outbox (.beginFetch now 20 .stored fun _ => false), .outbox (.commitFetch 0),
    .outbox (.deliver 0 [] (Common.Sample.answering 200)),
    .outbox (.update 0 now Common.Sample.random Common.Sample.takesAll)]

def failingCleanup (now : Time) : List ExpiryAction :=
  [.countExpired now, .selectExpired 0, .readExpired 0 .stored, .deleteBlob 0 fun _ => true]

def cleanEvents (now : Time) : List ExpiryAction :=
  [.outbox (.cleanupCount now 168), .outbox (.cleanupSelect 0), .outbox (.cleanupDelete 0)]

def noticedTwice : List ExpiryAction :=
  sweep 0 (hours 24) ++ deliver (hours 24) ++ failingCleanup (hours 30) ++
    cleanEvents (hours 193) ++ sweep 1 (hours 193)

end Sample

/-- The second sweep finds the notice of the first. -/
theorem noticed_once_of_keepsNotices_twoSweeps :
    (expiry Sample.defaults 168).Always NoticedOnce (.init Sample.oneStored)
      (Sample.sweep 0 (hours 24) ++ Sample.sweep 1 (hours 25)) :=
  noticed_once_of_keepsNotices Sample.defaults 168 Sample.oneStored _
    (.cons trivial rfl (.cons trivial rfl (.cons trivial rfl (.cons trivial rfl trivial))))

/-- With the default settings: the blob of the file cannot be deleted, its notice is deleted
after a week, and the next sweep announces the file again. -/
theorem noticed_twice :
    ¬ ∀ (settings : Settings) (retentionHours : Int) (start : UploadState)
      (actions : List ExpiryAction), 0 < settings.ttlHours → 0 < retentionHours →
      InOrder actions →
      (expiry settings retentionHours).Always NoticedOnce (.init start) actions := by
  intro once
  have always := once Sample.defaults 168 Sample.oneStored Sample.noticedTwice (by decide)
    (by decide) (by decide)
  have twice := always Sample.noticedTwice [] _ (List.append_nil _).symm rfl (Sample.uuid 0)
  exact absurd twice (by decide)

end Doorito.Portal
