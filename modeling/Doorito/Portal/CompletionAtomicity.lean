import Doorito.Foundation.History
import Doorito.Foundation.Parties
import Doorito.Portal.CleanupReport
import Doorito.Portal.SessionProperties
import Doorito.Portal.SessionStatements

/-! What `complete_upload_session` has read stays true until it commits, so that its statements
amount to one step, which is taken at the commit. -/

set_option autoImplicit false

namespace Doorito.Portal

open Foundation Common Machine

/-! ## Steps -/

/-- What a statement can do. -/
inductive StatementStep (world : StatementWorld) : StatementAction → StatementWorld → Prop where
  | inserted {now : Time} {session : Uuid} {arguments : PartArguments} {committed : SessionWorld} :
      chunkedUploads.step world.committed (.insertPart now session arguments) = some committed →
      StatementStep world (.insertPart now session arguments) { world with committed }
  | counted {number : Nat} {record : OpenCall} {committed : SessionWorld} :
      world.committed.calls[number]? = some (some record) →
      world.sessionLocked record.session = false →
      chunkedUploads.step world.committed (.countPart number) = some committed →
      StatementStep world (.countPart number) { world with committed }
  | marked {now : Time} {file : Uuid} {error : String} {committed : SessionWorld} :
      world.fileLocked file = false →
      sessionCalls.step world.committed (.markFileFailed now file error) = some committed →
      StatementStep world (.markFileFailed now file error) { world with committed }
  | deleted {pks : List Uuid} :
      world.anyLocked pks = false →
      StatementStep world (.deleteFiles pks)
        { world with
          committed := { world.committed with
            database := world.committed.database.deleteFiles pks } }
  | refreshed {session : Uuid} {row : UploadSession} :
      row ∈ world.committed.database.sessions.rows →
      StatementStep world (.refresh session)
        { world with completions := world.completions ++ [.refreshed row] }
  | missing {session : Uuid} :
      StatementStep world (.refresh session)
        { world with completions := world.completions ++ [.ended] }
  | enough {completion : Nat} {row : UploadSession} :
      world.completions[completion]? = some (.refreshed row) →
      row.totalParts ≤ world.committed.database.receivedCount row.pk →
      StatementStep world (.count completion) (world.setPhase completion (.counted row))
  | saved {completion : Nat} {now : Time} {row : UploadSession} :
      world.completions[completion]? = some (.counted row) →
      world.sessionLocked row.pk = false →
      row.pk ∈ world.committed.database.sessions.keys →
      StatementStep world (.save completion now) (world.setPhase completion (.saved now row))
  | updated {completion : Nat} {now : Time} {row : UploadSession} :
      world.completions[completion]? = some (.saved now row) →
      world.fileLocked row.file = false →
      StatementStep world (.updateFile completion) (world.setPhase completion
        (.updated now row (world.committed.database.isUploading row.file)))
  | committed {completion : Nat} {now : Time} {row : UploadSession} {stores : Bool} :
      world.completions[completion]? = some (.updated now row stores) →
      StatementStep world (.commit completion)
        { committed := { world.committed with
            database := world.committed.database.commitCompletion now row.pk row.file stores }
          completions := world.completions.set completion .ended }
  | tooFew {completion : Nat} {row : UploadSession} :
      world.completions[completion]? = some (.refreshed row) →
      StatementStep world (.count completion) (world.setPhase completion .ended)
  | unsaved {completion : Nat} {now : Time} {row : UploadSession} :
      world.completions[completion]? = some (.counted row) →
      StatementStep world (.save completion now) (world.setPhase completion .ended)
  | rolledBack {completion : Nat} {phase : CompletionPhase} :
      world.completions[completion]? = some phase →
      StatementStep world (.rollback completion) (world.setPhase completion .ended)

theorem StatementStep.of_step {world next : StatementWorld} {action : StatementAction}
    (stepped : statements.step world action = some next) : StatementStep world action next := by
  cases action with
  | insertPart now session arguments =>
      obtain ⟨committed, moved, rfl⟩ := Option.map_eq_some_iff.mp stepped
      exact .inserted moved
  | countPart number =>
      simp only [statements] at stepped
      split at stepped
      · next record found =>
        split_ifs at stepped with locked
        obtain ⟨committed, moved, rfl⟩ := Option.map_eq_some_iff.mp stepped
        exact .counted found (Bool.eq_false_iff.mpr locked) moved
      · cases stepped
  | markFileFailed now file error =>
      simp only [statements] at stepped
      split_ifs at stepped with locked
      obtain ⟨committed, moved, rfl⟩ := Option.map_eq_some_iff.mp stepped
      exact .marked (Bool.eq_false_iff.mpr locked) moved
  | deleteFiles pks =>
      simp only [statements] at stepped
      split_ifs at stepped with locked
      obtain ⟨committed, moved, rfl⟩ := Option.map_eq_some_iff.mp stepped
      cases moved
      exact .deleted (Bool.eq_false_iff.mpr locked)
  | refresh session =>
      simp only [statements] at stepped
      split at stepped <;> cases stepped
      · exact .missing
      · next row found => exact .refreshed (Table.get?_eq_some_iff.mp found).1
  | count completion =>
      simp only [statements] at stepped
      split at stepped
      · next row found =>
        split_ifs at stepped with short <;> cases stepped
        · exact .tooFew found
        · exact .enough found (not_lt.mp short)
      · cases stepped
  | save completion now =>
      simp only [statements] at stepped
      split at stepped
      · next row found =>
        split_ifs at stepped with locked there <;> cases stepped
        · exact .saved found (Bool.eq_false_iff.mpr locked) there
        · exact .unsaved found
      · cases stepped
  | updateFile completion =>
      simp only [statements] at stepped
      split at stepped
      · next now row found =>
        split_ifs at stepped with locked
        cases stepped
        exact .updated found (Bool.eq_false_iff.mpr locked)
      · cases stepped
  | commit completion =>
      simp only [statements] at stepped
      split at stepped <;> cases stepped
      next now row stores found => exact .committed found
  | rollback completion =>
      simp only [statements] at stepped
      split at stepped <;> cases stepped
      next phase _ found => exact .rolledBack found

/-! ## What others leave alone -/

/-- What a step does to sessions and files. It may delete the sessions of some files; the files
whose status it may change are not UPLOADING afterwards. -/
structure Database.Follows (touched deletes : Uuid → Prop) (before after : Database) : Prop where
  sessions : ∀ row ∈ after.sessions.rows, ∃ old ∈ before.sessions.rows,
    old.pk = row.pk ∧ old.totalParts = row.totalParts ∧ old.file = row.file
  stay : ∀ row ∈ before.sessions.rows, row.pk ∈ after.sessions.keys ∨ deletes row.file
  received : ∀ session ∈ after.sessions.keys,
    before.receivedCount session ≤ after.receivedCount session
  files : ∀ file ∈ after.files.rows, ∃ old ∈ before.files.rows, old.pk = file.pk ∧
    (file.status = old.status ∨ touched file.pk ∧ file.status ≠ .uploading)

/-- A session that is not deleted keeps its parts. -/
theorem partsOf_deleteFiles {database : Database} {pks : List Uuid} {session : Uuid}
    (kept : session ∈ (database.deleteFiles pks).sessions.keys) :
    (database.deleteFiles pks).partsOf session = database.partsOf session := by
  rw [Database.partsOf, (deleteFiles_withoutFiles database pks).parts, List.filter_filter]
  refine List.filter_congr fun part _ => ?_
  by_cases same : part.session = session
  · simp [same, kept]
  · simp [same]

namespace Database.Follows

variable {before after : Database}

/-- No session goes, and no part. -/
theorem of_same_keys {touched : Uuid → Prop}
    (sessions : ∀ row ∈ after.sessions.rows, ∃ old ∈ before.sessions.rows,
      old.pk = row.pk ∧ old.totalParts = row.totalParts ∧ old.file = row.file)
    (keys : after.sessions.keys = before.sessions.keys)
    (parts : before.parts.rows.Sublist after.parts.rows)
    (files : ∀ file ∈ after.files.rows, ∃ old ∈ before.files.rows, old.pk = file.pk ∧
      (file.status = old.status ∨ touched file.pk ∧ file.status ≠ .uploading)) :
    Follows touched (fun _ => False) before after where
  sessions := sessions
  stay _ member := .inl (keys ▸ Table.mem_keys_of_mem member)
  received _ _ := (parts.filter _).countP_le
  files := files

theorem refl (database : Database) :
    Follows (fun _ => False) (fun _ => False) database database :=
  of_same_keys (fun row member => ⟨row, member, rfl, rfl, rfl⟩) rfl (List.Sublist.refl _)
    (fun file member => ⟨file, member, rfl, .inl rfl⟩)

theorem of_insertPart {now : Time} {session : Uuid} {arguments : PartArguments}
    (inserted : insertPart now session arguments before = .ok after) :
    Follows (fun _ => False) (fun _ => False) before after := by
  obtain ⟨_, stored⟩ := insertPart_eq_ok_iff.mp inserted
  obtain ⟨_, _, _, files, sessions, parts, _⟩ := Database.insertPart?_eq_some stored
  exact of_same_keys (fun row member => ⟨row, sessions ▸ member, rfl, rfl, rfl⟩)
    (congrArg Table.keys sessions) (parts ▸ List.sublist_append_left _ _)
    (fun file member => ⟨file, files ▸ member, rfl, .inl rfl⟩)

theorem of_countPart {session : Uuid} {sizeBytes : Nat}
    (counted : countPart session sizeBytes before = .ok after) :
    Follows (fun _ => False) (fun _ => False) before after := by
  obtain ⟨_, rfl⟩ := countPart_eq_ok_iff.mp counted
  have keys := Table.keys_updateWhere before.sessions (·.pk = session) (·.counted sizeBytes)
    (UploadSession.pk_counted sizeBytes)
  refine of_same_keys ?_ keys (List.Sublist.refl _)
    (fun file member => ⟨file, member, rfl, .inl rfl⟩)
  intro row member
  rw [sessions_writeCount] at member
  obtain ⟨old, stored, rfl⟩ := List.mem_map.mp member
  refine ⟨old, stored, ?_⟩
  split <;> exact ⟨rfl, rfl, rfl⟩

theorem of_markFileFailed {now : Time} {file : Uuid} {error : String}
    (marked : markFileFailed now file error before = .ok after) :
    Follows (· = file) (fun _ => False) before after := by
  unfold markFileFailed at marked
  split_ifs at marked
  cases marked
  refine of_same_keys (fun row member => ⟨row, member, rfl, rfl, rfl⟩) rfl (List.Sublist.refl _) ?_
  intro row member
  simp only [Database.updateFiles, Table.mem_updateWhere] at member
  obtain ⟨old, stored, rfl⟩ := member
  refine ⟨old, stored, ?_⟩
  split
  · next same => exact ⟨rfl, .inr ⟨of_decide_eq_true same, by simp [UploadFile.markFailed]⟩⟩
  · exact ⟨rfl, .inl rfl⟩

theorem of_deleteFiles (before : Database) (pks : List Uuid) :
    Follows (fun _ => False) (· ∈ pks) before (before.deleteFiles pks) := by
  have gone := deleteFiles_withoutFiles before pks
  constructor
  · intro row member
    rw [gone.sessions] at member
    exact ⟨row, (List.mem_filter.mp member).1, rfl, rfl, rfl⟩
  · intro row member
    by_cases chosen : row.file ∈ pks
    · exact .inr chosen
    · refine .inl (Table.mem_keys_of_mem ?_)
      rw [gone.sessions]
      exact List.mem_filter.mpr ⟨member, decide_eq_true chosen⟩
  · intro session kept
    rw [receivedCount, receivedCount, partsOf_deleteFiles kept]
  · intro file member
    rw [gone.files] at member
    exact ⟨file, (List.mem_filter.mp member).1, rfl, .inl rfl⟩

theorem of_commitCompletion (before : Database) (now : Time) (session file : Uuid)
    (stores : Bool) :
    Follows (fun touched => touched = file ∧ stores = true) (fun _ => False) before
      (before.commitCompletion now session file stores) := by
  have keys := Table.keys_updateWhere before.sessions (·.pk = session) (·.completed now)
    (UploadSession.pk_completed now)
  refine of_same_keys ?_ keys (List.Sublist.refl _) ?_
  · intro row member
    simp only [commitCompletion, updateFiles, updateSessions, Table.mem_updateWhere] at member
    obtain ⟨old, stored, rfl⟩ := member
    refine ⟨old, stored, ?_⟩
    split <;> exact ⟨rfl, rfl, rfl⟩
  · intro row member
    simp only [commitCompletion, updateFiles, updateSessions, Table.mem_updateWhere] at member
    obtain ⟨old, stored, rfl⟩ := member
    refine ⟨old, stored, ?_⟩
    split
    · next writes => exact ⟨rfl, .inr ⟨of_decide_eq_true writes, by simp [UploadFile.store]⟩⟩
    · exact ⟨rfl, .inl rfl⟩

end Database.Follows

/-! ## What a completion has found out -/

theorem CompletionPhase.mem_storedFile?_updated {now : Time} {session : UploadSession}
    {stores : Bool} {file : Uuid} :
    file ∈ (CompletionPhase.updated now session stores).storedFile? ↔
      stores = true ∧ session.file = file := by
  cases stores <;> simp [storedFile?]

/-- The session is as it was read, unless it has been deleted. -/
def Database.Knows (database : Database) (session : UploadSession) : Prop :=
  ∀ row ∈ database.sessions.rows, row.pk = session.pk →
    row.totalParts = session.totalParts ∧ row.file = session.file

/-- The session has all its parts, unless it has been deleted. -/
def Database.HasEnough (database : Database) (session : UploadSession) : Prop :=
  session.pk ∈ database.sessions.keys → session.totalParts ≤ database.receivedCount session.pk

def CompletionPhase.Holds (database : Database) : CompletionPhase → Prop
  | .refreshed session => database.Knows session
  | .counted session => database.Knows session ∧ database.HasEnough session
  | .saved _ session =>
      (database.Knows session ∧ database.HasEnough session) ∧ session.pk ∈ database.sessions.keys
  | .updated _ session stores =>
      ((database.Knows session ∧ database.HasEnough session) ∧
        session.pk ∈ database.sessions.keys) ∧
      ∀ file ∈ database.files.rows, file.pk = session.file →
        (file.status = .uploading ↔ stores = true)
  | .ended => True

section Follows

variable {touched deletes : Uuid → Prop} {before after : Database} {session : UploadSession}
  (follows : Database.Follows touched deletes before after)
include follows

theorem Database.Knows.follow (knows : before.Knows session) : after.Knows session := by
  intro row member key
  obtain ⟨old, stored, pk, totalParts, file⟩ := follows.sessions row member
  obtain ⟨sameParts, sameFile⟩ := knows old stored (pk.trans key)
  exact ⟨totalParts.symm.trans sameParts, file.symm.trans sameFile⟩

theorem Database.HasEnough.follow (enough : before.HasEnough session) :
    after.HasEnough session := by
  intro there
  obtain ⟨row, member, key⟩ := Table.mem_keys.mp there
  obtain ⟨old, stored, pk, _⟩ := follows.sessions row member
  have was : session.pk ∈ before.sessions.keys := Table.mem_keys.mpr ⟨old, stored, pk.trans key⟩
  exact (enough was).trans (follows.received session.pk there)

theorem Database.Knows.stays (knows : before.Knows session)
    (there : session.pk ∈ before.sessions.keys) (kept : ¬ deletes session.file) :
    session.pk ∈ after.sessions.keys := by
  obtain ⟨row, member, key⟩ := Table.mem_keys.mp there
  rcases follows.stay row member with stays | deleted
  · exact key ▸ stays
  · exact absurd ((knows row member key).2 ▸ deleted) kept

/-- What a completion has found out survives the steps of others, as they do not touch what it
has locked. -/
theorem CompletionPhase.Holds.follow {phase : CompletionPhase} (holds : phase.Holds before)
    (kept : ∀ session ∈ phase.savedSession?, ¬ deletes session.file)
    (untouched : ∀ file ∈ phase.storedFile?, ¬ touched file) : phase.Holds after := by
  cases phase with
  | refreshed session => exact Database.Knows.follow follows holds
  | counted session => exact ⟨holds.1.follow follows, holds.2.follow follows⟩
  | saved now session =>
      exact ⟨⟨holds.1.1.follow follows, holds.1.2.follow follows⟩,
        holds.1.1.stays follows holds.2 (kept session rfl)⟩
  | updated now session stores =>
      obtain ⟨⟨⟨knows, enough⟩, there⟩, status⟩ := holds
      refine ⟨⟨⟨knows.follow follows, enough.follow follows⟩,
        knows.stays follows there (kept session rfl)⟩, ?_⟩
      intro file member same
      obtain ⟨old, stored, pk, either⟩ := follows.files file member
      rcases either with unchanged | ⟨touches, notUploading⟩
      · rw [unchanged]
        exact status old stored (pk.trans same)
      · cases stores with
        | true => exact absurd (same ▸ touches) (untouched session.file rfl)
        | false => simp [notUploading]
  | ended => trivial

end Follows

/-! ## The invariant -/

structure StatementInvariant (world : StatementWorld) : Prop where
  holds : ∀ phase ∈ world.completions, phase.Holds world.committed.database
  sessions : Exclusive (fun phase : CompletionPhase => phase.savedSession?.map (·.pk))
    world.completions
  files : Exclusive CompletionPhase.storedFile? world.completions

namespace StatementInvariant

variable {world : StatementWorld}

/-- A step of others, who have waited for the locks. -/
theorem follow {touched deletes : Uuid → Prop} (invariant : StatementInvariant world)
    {committed : SessionWorld}
    (follows : Database.Follows touched deletes world.committed.database committed.database)
    (kept : ∀ phase ∈ world.completions, ∀ session ∈ phase.savedSession?, ¬ deletes session.file)
    (untouched : ∀ phase ∈ world.completions, ∀ file ∈ phase.storedFile?, ¬ touched file) :
    StatementInvariant { world with committed } where
  holds phase member :=
    (invariant.holds phase member).follow follows (kept phase member) (untouched phase member)
  sessions := invariant.sessions
  files := invariant.files

/-- A completion begins. -/
theorem join (invariant : StatementInvariant world) {phase : CompletionPhase}
    (holds : phase.Holds world.committed.database) (unsaved : phase.savedSession? = none)
    (unstored : phase.storedFile? = none) :
    StatementInvariant { world with completions := world.completions ++ [phase] } where
  holds := by
    intro other member
    rcases List.mem_append.mp member with old | new
    · exact invariant.holds other old
    · rw [List.mem_singleton.mp new]
      exact holds
  sessions := invariant.sessions.join (by rw [unsaved]; rfl)
  files := invariant.files.join unstored

/-- A completion goes on to its next phase. -/
theorem turn (invariant : StatementInvariant world) {completion : Nat}
    {old phase : CompletionPhase} (found : world.completions[completion]? = some old)
    (holds : phase.Holds world.committed.database)
    (saves : ∀ session ∈ phase.savedSession?,
      old.savedSession? = some session ∨ world.sessionLocked session.pk = false)
    (stores : ∀ file ∈ phase.storedFile?,
      old.storedFile? = some file ∨ world.fileLocked file = false) :
    StatementInvariant (world.setPhase completion phase) where
  holds := by
    intro other member
    rcases List.mem_or_eq_of_mem_set member with was | rfl
    · exact invariant.holds other was
    · exact holds
  sessions := by
    refine invariant.sessions.turn found ?_
    intro key held
    obtain ⟨session, saved, rfl⟩ := Option.map_eq_some_iff.mp held
    rcases saves session saved with had | free
    · exact .inl (by rw [had]; rfl)
    · refine .inr fun other member same => ?_
      obtain ⟨taken, savedOther, key⟩ := Option.map_eq_some_iff.mp same
      refine List.any_eq_false.mp free other member ?_
      rw [savedOther]
      exact decide_eq_true key
  files := by
    refine invariant.files.turn found ?_
    intro file held
    rcases stores file held with had | free
    · exact .inl had
    · exact .inr fun other member same =>
        List.any_eq_false.mp free other member (decide_eq_true same)

/-- A step of others that neither deletes sessions nor changes the status of a file. -/
theorem follow_quiet (invariant : StatementInvariant world) {committed : SessionWorld}
    (follows : Database.Follows (fun _ => False) (fun _ => False) world.committed.database
      committed.database) : StatementInvariant { world with committed } :=
  invariant.follow follows (fun _ _ _ _ => id) (fun _ _ _ _ => id)

theorem commit (invariant : StatementInvariant world) {completion : Nat} {now : Time}
    {row : UploadSession} {stores : Bool}
    (found : world.completions[completion]? = some (.updated now row stores)) :
    StatementInvariant
      { committed := { world.committed with
          database := world.committed.database.commitCompletion now row.pk row.file stores }
        completions := world.completions.set completion .ended } := by
  have ended : StatementInvariant (world.setPhase completion .ended) :=
    invariant.turn found trivial (by simp [CompletionPhase.savedSession?])
      (by simp [CompletionPhase.storedFile?])
  refine ended.follow (Database.Follows.of_commitCompletion _ now row.pk row.file stores)
    (fun _ _ _ _ => id) ?_
  rintro phase member file holds ⟨rfl, rfl⟩
  exact invariant.files.released found rfl rfl phase member holds

theorem step {next : StatementWorld} {action : StatementAction}
    (invariant : StatementInvariant world) (stepped : statements.step world action = some next) :
    StatementInvariant next := by
  cases StatementStep.of_step stepped with
  | inserted moved =>
      cases SessionStep.of_step moved with
      | inserted inserted => exact invariant.follow_quiet (.of_insertPart inserted)
      | rejected _ => exact invariant.follow_quiet (.refl _)
  | counted _ _ moved =>
      cases SessionStep.of_step moved with
      | counted _ counted => exact invariant.follow_quiet (.of_countPart counted)
      | uncounted _ _ => exact invariant.follow_quiet (.refl _)
  | @marked now file error committed free moved =>
      simp only [sessionCalls] at moved
      split at moved <;> cases moved
      · next marked =>
        refine invariant.follow (.of_markFileFailed marked) (fun _ _ _ _ => id) ?_
        rintro phase member file holds rfl
        exact List.any_eq_false.mp free phase member (decide_eq_true holds)
      · exact invariant
  | @deleted pks free =>
      refine invariant.follow (.of_deleteFiles _ pks) ?_ (fun _ _ _ _ => id)
      intro phase member session holds chosen
      refine List.any_eq_false.mp free phase member ?_
      rw [Option.mem_def.mp holds]
      exact decide_eq_true chosen
  | @refreshed _ row stored =>
      refine invariant.join ?_ rfl rfl
      intro other member key
      rw [Table.eq_of_key_eq member stored key]
      exact ⟨rfl, rfl⟩
  | missing => exact invariant.join trivial rfl rfl
  | @enough completion row found enough =>
      have holds := invariant.holds _ (List.mem_of_getElem? found)
      exact invariant.turn found ⟨holds, fun _ => enough⟩ (by simp [CompletionPhase.savedSession?])
        (by simp [CompletionPhase.storedFile?])
  | @saved completion now row found free there =>
      have holds := invariant.holds _ (List.mem_of_getElem? found)
      refine invariant.turn found ⟨holds, there⟩ ?_ (by simp [CompletionPhase.storedFile?])
      intro session saves
      cases saves
      exact .inr free
  | @updated completion now row found free =>
      have holds := invariant.holds _ (List.mem_of_getElem? found)
      refine invariant.turn found ⟨holds, ?_⟩ ?_ ?_
      · intro file member same
        constructor
        · intro uploading
          exact List.any_eq_true.mpr ⟨file, member, decide_eq_true ⟨same, uploading⟩⟩
        · intro some
          obtain ⟨other, stored, is⟩ := List.any_eq_true.mp some
          obtain ⟨key, uploading⟩ := of_decide_eq_true is
          rw [Table.eq_of_key_eq member stored (same.trans key.symm)]
          exact uploading
      · intro session saves
        exact .inl saves
      · intro file stores
        exact .inr ((CompletionPhase.mem_storedFile?_updated.mp stores).2 ▸ free)
  | committed found => exact invariant.commit found
  | tooFew found | unsaved found | rolledBack found =>
      exact invariant.turn found trivial (by simp [CompletionPhase.savedSession?])
        (by simp [CompletionPhase.storedFile?])

theorem init (database : Database) : StatementInvariant (.init database) :=
  ⟨fun _ member => absurd member List.not_mem_nil, .start, .start⟩

theorem of_run {database : Database} {actions : List StatementAction}
    (ran : statements.run (.init database) actions = some world) : StatementInvariant world :=
  run_preserves (fun _ _ _ invariant stepped => invariant.step stepped) (.init database) ran

end StatementInvariant

/-! ## The commit as a whole call -/

/-- The whole calls that a statement amounts to. -/
def StatementWorld.wholeCalls (world : StatementWorld) : StatementAction → List SessionCall
  | .insertPart now session arguments => [.session (.insertPart now session arguments)]
  | .countPart number => [.session (.countPart number)]
  | .markFileFailed now file error => [.markFileFailed now file error]
  | .deleteFiles pks => [.deleteFiles pks]
  | .commit completion =>
      match world.completions[completion]? with
      | some (.updated now row _) => [.session (.complete now row.pk)]
      | _ => []
  | .refresh _ | .count _ | .save _ _ | .updateFile _ | .rollback _ => []

theorem commitCompletion_eq {database : Database} {session file : Uuid} {stores : Bool}
    (now : Time) (status : ∀ row ∈ database.files.rows, row.pk = file →
      (row.status = .uploading ↔ stores = true)) :
    database.commitCompletion now session file stores =
      database.writeCompletion now session file := by
  unfold Database.commitCompletion Database.writeCompletion Database.updateFiles
  congr 1
  apply Table.ext
  refine List.map_congr_left fun row member => ?_
  by_cases same : row.pk = file
  · simp [same, status row member same]
  · simp [same]

/-- A completion that commits does what a whole call does in this state. -/
theorem CompletionPhase.Holds.completes {database : Database} {now : Time}
    {session : UploadSession} {stores : Bool}
    (holds : (CompletionPhase.updated now session stores).Holds database) :
    completeUploadSession now session.pk database =
      .ok (database.commitCompletion now session.pk session.file stores) := by
  obtain ⟨⟨⟨knows, enough⟩, there⟩, status⟩ := holds
  obtain ⟨row, member, key⟩ := Table.mem_keys.mp there
  obtain ⟨totalParts, file⟩ := knows row member key
  rw [completeUploadSession_of_enough member key (totalParts ▸ enough there), file,
    commitCompletion_eq now status]

theorem StatementInvariant.step_translated {world next : StatementWorld}
    {action : StatementAction} (invariant : StatementInvariant world)
    (stepped : statements.step world action = some next) :
    sessionCalls.run world.committed (world.wholeCalls action) = some next.committed := by
  have single : ∀ {call : SessionCall} {committed : SessionWorld},
      sessionCalls.step world.committed call = some committed →
        sessionCalls.run world.committed [call] = some committed := by
    intro call committed moved
    exact sessionCalls.run_cons_eq_some_iff.mpr ⟨committed, moved, rfl⟩
  cases StatementStep.of_step stepped with
  | inserted moved => exact single moved
  | counted _ _ moved => exact single moved
  | marked _ moved => exact single moved
  | deleted _ => exact single rfl
  | refreshed _ | missing | enough _ _ | saved _ _ _ | updated _ _ => rfl
  | tooFew _ | unsaved _ | rolledBack _ => rfl
  | committed found =>
      have completes := (invariant.holds _ (List.mem_of_getElem? found)).completes
      rw [StatementWorld.wholeCalls, found]
      refine single ?_
      simp only [sessionCalls, chunkedUploads, completes]

/-- In every interleaving of the statements of `complete_upload_session` with the statements of
`record_upload_part`, `mark_file_failed` and the file cleanup: what is committed is what whole
calls leave, of which each completion that commits is one, which is made at its commit and returns.
No two completions have locked the same row. -/
theorem completions_are_atomic {database : Database} {actions : List StatementAction}
    {world : StatementWorld} (ran : statements.run (.init database) actions = some world) :
    sessionCalls.run (.init database)
        (statements.translated StatementWorld.wholeCalls (.init database) actions) =
      some world.committed ∧
    (∀ earlier completion, statements.Takes (.init database) actions earlier (.commit completion) →
      ∃ now session final,
        earlier.wholeCalls (.commit completion) = [.session (.complete now session)] ∧
          completeUploadSession now session earlier.committed.database = .ok final) ∧
    Exclusive (fun phase : CompletionPhase => phase.savedSession?.map (·.pk)) world.completions ∧
    Exclusive CompletionPhase.storedFile? world.completions := by
  have invariant := StatementInvariant.of_run ran
  refine ⟨?_, ?_, invariant.sessions, invariant.files⟩
  · exact run_translated StatementWorld.committed
      (fun state action next invariant stepped =>
        ⟨invariant.step stepped, invariant.step_translated stepped⟩)
      (StatementInvariant.init database) ran
  · rintro earlier completion ⟨before, after, rfl, reached⟩
    obtain ⟨middle, reachedOther, rest⟩ := statements.run_append_eq_some_iff.mp ran
    cases reached.symm.trans reachedOther
    obtain ⟨next, stepped, _⟩ := statements.run_cons_eq_some_iff.mp rest
    have holds := (StatementInvariant.of_run reached).holds
    cases StatementStep.of_step stepped with
    | @committed _ now session stores found =>
        refine ⟨now, session.pk, _, ?_, (holds _ (List.mem_of_getElem? found)).completes⟩
        simp only [StatementWorld.wholeCalls, found]

namespace Sample

/-- The file is marked FAILED after the completion has counted the parts. The counters of the
session wait for its commit. -/
def failedMeanwhile : List StatementAction :=
  [.insertPart 0 session.pk (part 1), .refresh session.pk, .count 0,
    .markFileFailed 1 file.pk "", .save 0 2, .updateFile 0, .commit 0, .countPart 0]

end Sample

theorem completions_are_atomic_failedMeanwhile : ∃ world,
    statements.run (.init Sample.uploadStarted) Sample.failedMeanwhile = some world ∧
      sessionCalls.run (.init Sample.uploadStarted)
        [.session (.insertPart 0 Sample.session.pk (Sample.part 1)),
          .markFileFailed 1 Sample.file.pk "", .session (.complete 2 Sample.session.pk),
          .session (.countPart 0)] = some world.committed := by
  obtain ⟨world, ran⟩ : ∃ world,
      statements.run (.init Sample.uploadStarted) Sample.failedMeanwhile = some world := ⟨_, rfl⟩
  exact ⟨world, ran, (completions_are_atomic ran).1⟩

end Doorito.Portal
