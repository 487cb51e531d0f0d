import Doorito.Foundation.History
import Doorito.Portal.ExpiryNotices
import Doorito.Portal.FileSteps

/-! What is left of old files. Once a cleanup has had room for all the files that were expired
when it began, none of them is in the database ever again: no step makes a file old. -/

set_option autoImplicit false

namespace Doorito.Portal

open Foundation Common

/-- Every file from before the cutoff has one of the keys. -/
def OldAmong (cutoff : Time) (keys : List Uuid) (files : FileTable) : Prop :=
  ∀ row ∈ files.rows, row.createdAt < cutoff → row.pk ∈ keys

/-- The action takes place at this time or later. -/
def ExpiryAction.NotBefore (now : Time) (action : ExpiryAction) : Prop :=
  ∀ reading ∈ action.reading?, now ≤ reading

instance (now : Time) (action : ExpiryAction) : Decidable (action.NotBefore now) :=
  inferInstanceAs (Decidable (∀ reading ∈ action.reading?, now ≤ reading))

/-- The row has been there, or the action has created it at its time. -/
def DatedBy (files : FileTable) (reading : Option Time) (row : UploadFile) : Prop :=
  (∃ old ∈ files.rows, old.pk = row.pk ∧ old.createdAt = row.createdAt) ∨
    reading = some row.createdAt

/-! ## Files -/

section Files

variable {settings : Settings} {retentionHours : Int} {world next : ExpiryWorld}
  {action : ExpiryAction} {cutoff : Time} {keys : List Uuid}

theorem step_dates (stepped : (expiry settings retentionHours).step world action = some next)
    {row : UploadFile} (member : row ∈ next.files.rows) :
    DatedBy world.files action.reading? row := by
  rcases step_upload_origin stepped member with ⟨old, was, same⟩ | ⟨call, rfl, origin, _⟩
  · exact .inl ⟨old, was, same.pk, same.createdAt⟩
  · cases origin with
    | kept old was same => exact .inl ⟨old, was, same.pk, same.createdAt⟩
    | started is status =>
        rw [is]
        exact .inr rfl
    | created given input user file batch is shape =>
        rw [is, shape]
        exact .inr (congrArg some (createdAt_createdRow ..).symm)

/-- No step makes a file old. -/
theorem OldAmong.step (among : OldAmong cutoff keys world.files)
    (late : action.NotBefore cutoff)
    (stepped : (expiry settings retentionHours).step world action = some next) :
    OldAmong cutoff keys next.files := by
  intro row member old
  rcases step_dates stepped member with ⟨earlier, was, same, created⟩ | reading
  · exact same ▸ among earlier was (created ▸ old)
  · exact absurd old (not_lt.mpr (late _ reading))

theorem OldAmong.run {actions : List ExpiryAction} {final : ExpiryWorld}
    (among : OldAmong cutoff keys world.files) (late : ∀ action ∈ actions, action.NotBefore cutoff)
    (ran : (expiry settings retentionHours).run world actions = some final) :
    OldAmong cutoff keys final.files := by
  induction actions generalizing world with
  | nil =>
      cases ran
      exact among
  | cons action rest ih =>
      obtain ⟨middle, stepped, ran⟩ := (Machine.run_cons_eq_some_iff _).mp ran
      exact ih (among.step (late action List.mem_cons_self) stepped)
        (fun other member => late other (List.mem_cons_of_mem _ member)) ran

end Files

/-! ## Cleanups -/

/-- A cleanup has the old files among its keys, unless it has all the keys that it can take. -/
def FileCleanupPhase.Covers (cutoff : Time) (files : FileTable) : FileCleanupPhase → Prop
  | .counted later _ => cutoff ≤ later
  | .selected _ batchPks | .deleting _ batchPks _ =>
      batchPks.length < expiredBatchSize → OldAmong cutoff batchPks files
  | .ended => True

theorem oldAmong_selectExpired {cutoff later : Time} (files : FileTable) (ordered : cutoff ≤ later)
    (few : (selectExpired later files).length < expiredBatchSize) :
    OldAmong cutoff (selectExpired later files) files := by
  intro row member old
  have expired : row.isExpired later = true := decide_eq_true (old.trans_le ordered)
  have listed : row.pk ∈ ((files.rows.filter (·.isExpired later)).map (·.pk)).insertionSort
      (· ≤ ·) :=
    (List.mem_insertionSort _).mpr (List.mem_map_of_mem (List.mem_filter.mpr ⟨member, expired⟩))
  unfold selectExpired at few ⊢
  rw [List.length_take] at few
  rw [List.take_of_length_le (by omega)]
  exact listed

section Phases

variable {settings : Settings} {retentionHours : Int} {world next : ExpiryWorld}
  {action : ExpiryAction} {number : Nat} {phase : FileCleanupPhase}

theorem FileCleanupPhase.Covers.step {cutoff : Time}
    (covers : phase.Covers cutoff world.files) (late : action.NotBefore cutoff)
    (stepped : (expiry settings retentionHours).step world action = some next) :
    phase.Covers cutoff next.files := by
  cases phase with
  | counted later total => exact covers
  | selected total batchPks => exact fun few => (covers few).step late stepped
  | deleting total batchPks rest => exact fun few => (covers few).step late stepped
  | ended => trivial

end Phases

/-- All cleanups from this one on cover the files from before the cutoff. -/
def AllCover (cutoff : Time) (first : Nat) (world : ExpiryWorld) : Prop :=
  ∀ number phase, first ≤ number → world.fileCleanups[number]? = some phase →
    phase.Covers cutoff world.files

section Run

variable {settings : Settings} {retentionHours : Int} {world next : ExpiryWorld} {now : Time}

theorem ExpiryAction.NotBefore.earlier {action : ExpiryAction} (late : action.NotBefore now)
    (positive : 0 ≤ settings.ttlHours) : action.NotBefore (now - hours settings.ttlHours) := by
  have span : 0 ≤ hours settings.ttlHours :=
    Int.mul_nonneg (Int.mul_nonneg positive (by decide)) (by decide)
  exact fun reading taken => (Int.sub_le_self now span).trans (late reading taken)

theorem AllCover.step {action : ExpiryAction} {first : Nat} (positive : 0 ≤ settings.ttlHours)
    (all : AllCover (now - hours settings.ttlHours) first world) (late : action.NotBefore now)
    (stepped : (expiry settings retentionHours).step world action = some next) :
    AllCover (now - hours settings.ttlHours) first next := by
  have lateEnough : action.NotBefore (now - hours settings.ttlHours) := late.earlier positive
  intro number phase new found
  cases step_fileCleanup_origin stepped found with
  | kept same => exact (all number phase new same).step lateEnough stepped
  | ended is => rw [is]; trivial
  | counted later total is shape =>
      subst is shape
      exact Int.sub_le_sub_right (late later rfl) _
  | selected cutoff total was shape =>
      have ordered : now - hours settings.ttlHours ≤ cutoff := all number _ new was
      have selected : (FileCleanupPhase.selected total (selectExpired cutoff world.files)).Covers
          (now - hours settings.ttlHours) world.files :=
        oldAmong_selectExpired world.files ordered
      exact shape ▸ selected.step lateEnough stepped
  | read total batchPks rest was _ shape =>
      have covers : (FileCleanupPhase.selected total batchPks).Covers
          (now - hours settings.ttlHours) world.files := all number _ new was
      exact shape ▸ covers.step lateEnough stepped
  | passed total batchPks upload rest was shape =>
      have covers : (FileCleanupPhase.deleting total batchPks (upload :: rest)).Covers
          (now - hours settings.ttlHours) world.files := all number _ new was
      exact shape ▸ covers.step lateEnough stepped

end Run

/-- In every interleaving from `now` on: once a cleanup of these runs that has taken fewer files
than it can take has deleted them, no file from before `now` minus the time to live is ever
there again, and no session of one. -/
theorem expired_files_stay_gone {settings : Settings} {retentionHours : Int}
    (positive : 0 ≤ settings.ttlHours) {start middle final : ExpiryWorld} {now : Time}
    {before after : List ExpiryAction} {number totalExpired : Nat} {batchPks : List Uuid}
    (late : ∀ action ∈ before ++ .deleteFiles number :: after, action.NotBefore now)
    (reached : (expiry settings retentionHours).run start before = some middle)
    (began : start.fileCleanups.length ≤ number)
    (deleting : middle.fileCleanups[number]? = some (.deleting totalExpired batchPks []))
    (few : batchPks.length < expiredBatchSize)
    (ran : (expiry settings retentionHours).run middle (.deleteFiles number :: after) =
      some final) :
    (∀ row ∈ final.files.rows, now - hours settings.ttlHours ≤ row.createdAt) ∧
      ∀ session ∈ final.state.database.sessions.rows, ∃ row ∈ final.files.rows,
        row.pk = session.file ∧ now - hours settings.ttlHours ≤ row.createdAt := by
  have all : AllCover (now - hours settings.ttlHours) start.fileCleanups.length middle := by
    refine Machine.run_preserves_of_meets (fun _ _ _ all late stepped =>
      all.step positive late stepped) ?_ (Machine.meets_of_forall fun action member _ =>
        late action (List.mem_append_left _ member)) reached
    intro other phase new found
    rw [List.getElem?_eq_none new] at found
    cases found
  have among : OldAmong (now - hours settings.ttlHours) batchPks middle.files :=
    all number _ began deleting few
  obtain ⟨next, stepped, ran⟩ := (Machine.run_cons_eq_some_iff _).mp ran
  have gone : OldAmong (now - hours settings.ttlHours) [] next.files := by
    simp only [expiry, ExpiryWorld.step, deleting] at stepped
    cases stepped
    intro row member old
    obtain ⟨stays, kept⟩ := Table.mem_deleteWhere.mp member
    exact absurd (among row stays old) (by simpa using kept)
  have lateEnough : ∀ action ∈ after, action.NotBefore (now - hours settings.ttlHours) := by
    intro action member
    have taken : action ∈ before ++ .deleteFiles number :: after :=
      List.mem_append_right _ (List.mem_cons_of_mem _ member)
    exact (late action taken).earlier positive
  have none : OldAmong (now - hours settings.ttlHours) [] final.files :=
    gone.run lateEnough ran
  have young : ∀ row ∈ final.files.rows, now - hours settings.ttlHours ≤ row.createdAt := by
    intro row member
    by_contra old
    exact List.not_mem_nil (none row member (not_le.mp old))
  refine ⟨young, ?_⟩
  intro session member
  obtain ⟨row, stays, same⟩ :=
    Table.mem_keys.mp (final.state.database.sessionFile session member)
  exact ⟨row, stays, same, young row stays⟩

namespace Sample

def cleanedUp : List ExpiryAction :=
  [.countExpired (hours 30), .selectExpired 0, .readExpired 0 .stored, .deleteBlob 0 fun _ => false]

def young : UploadFile := { file with pk := uuid 1, createdAt := hours 31 }

end Sample

theorem expired_files_stay_gone_younger :
    ∃ final, (expiry Sample.defaults 168).run (.init Sample.oneStored)
        (Sample.cleanedUp ++ [.deleteFiles 0, .portal (.startUpload Sample.young)]) = some final ∧
      final.files.rows ≠ [] ∧ ∀ row ∈ final.files.rows, hours 6 ≤ row.createdAt := by
  obtain ⟨middle, reached, deleting⟩ : ∃ middle,
      (expiry Sample.defaults 168).run (.init Sample.oneStored) Sample.cleanedUp = some middle ∧
        middle.fileCleanups[0]? = some (.deleting 1 [Sample.uuid 0] []) := ⟨_, rfl, rfl⟩
  obtain ⟨final, ran, rows⟩ : ∃ final, (expiry Sample.defaults 168).run (.init Sample.oneStored)
      (Sample.cleanedUp ++ [.deleteFiles 0, .portal (.startUpload Sample.young)]) = some final ∧
        final.files.rows = [Sample.young] := ⟨_, rfl, rfl⟩
  obtain ⟨other, reachedOther, ranRest⟩ := (Machine.run_append_eq_some_iff _).mp ran
  cases reached.symm.trans reachedOther
  have late : ∀ action ∈ Sample.cleanedUp ++
      .deleteFiles 0 :: [.portal (.startUpload Sample.young)], action.NotBefore (hours 30) := by
    decide
  have bound := expired_files_stay_gone (by decide) late reached (Nat.zero_le 0) deleting
    (by decide) ranRest
  exact ⟨final, ran, by simp [rows], bound.1⟩

end Doorito.Portal
