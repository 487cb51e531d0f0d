import Doorito.Portal.UploadProperties
import Doorito.Portal.SessionProperties
import Doorito.Foundation.Machine

/-! Which STORED files are hashed and announced. A direct upload writes the row and its
event in one transaction; a chunked upload ends by changing the status alone. -/

set_option autoImplicit false

namespace Doorito.Portal

open Foundation Common

/-- Whole calls, one after the other. `startUpload` is a caller that creates a file in
status UPLOADING. -/
inductive PortalAction where
  | createUploadFile (settings : Settings) (input : UploadInput) (user : Option Nat)
      (file : UploadedFile) (batch : Option Uuid)
  | startUpload (upload : UploadFile)
  | createUploadSession (now : Time) (pk file : Uuid) (totalSizeBytes : Nat)
      (chunkSizeBytes : Option Nat)
  | recordUploadPart (now : Time) (session : Uuid) (arguments : PartArguments)
  | completeUploadSession (now : Time) (session : Uuid)
  | markFileFailed (now : Time) (file : Uuid) (error : String)
  | notifyExpiringFiles (settings : Settings) (input : SweepInput)
      (ttlHours notifyHours : Option Int)

/-- A call that raises leaves the database that it has committed. -/
def portal : Machine UploadState PortalAction where
  step state
    | .createUploadFile settings input user file batch =>
        some (createUploadFile settings input user file batch state).1
    | .startUpload upload =>
        if upload.status = .uploading then
          (state.database.insertFile? upload).map fun grown => { state with database := grown }
        else none
    | .createUploadSession now pk file totalSizeBytes chunkSizeBytes =>
        match createUploadSession now pk file totalSizeBytes chunkSizeBytes state.database with
        | .ok grown => some { state with database := grown }
        | .error _ => some state
    | .recordUploadPart now session arguments =>
        some { state with
          database := (recordUploadPart now session arguments state.database).1 }
    | .completeUploadSession now session =>
        match completeUploadSession now session state.database with
        | .ok completed => some { state with database := completed }
        | .error _ => some state
    | .markFileFailed now file error =>
        match markFileFailed now file error state.database with
        | .ok marked => some { state with database := marked }
        | .error _ => some state
    | .notifyExpiringFiles settings input ttlHours notifyHours =>
        some { state with
          database := (notifyExpiringFiles settings input ttlHours notifyHours state.database).1 }

/-- What a call leaves behind. A call that is refused leaves everything as it was; marking a
file is refused only when there is no such file. -/
inductive UploadState.Steps (state : UploadState) : PortalAction → UploadState → Prop where
  | uploaded {settings input user file batch} :
      Steps state (.createUploadFile settings input user file batch)
        (createUploadFile settings input user file batch state).1
  | started {upload grown} (uploading : upload.status = .uploading)
      (inserted : state.database.insertFile? upload = some grown) :
      Steps state (.startUpload upload) { state with database := grown }
  | sessionCreated {now pk file totalSizeBytes chunkSizeBytes session grown}
      (inserted : state.database.insertSession? session = some grown) :
      Steps state (.createUploadSession now pk file totalSizeBytes chunkSizeBytes)
        { state with database := grown }
  | partRecorded {now session arguments} :
      Steps state (.recordUploadPart now session arguments)
        { state with database := (recordUploadPart now session arguments state.database).1 }
  | completed {now row} (member : row ∈ state.database.sessions.rows)
      (enough : row.totalParts ≤ state.database.receivedCount row.pk) :
      Steps state (.completeUploadSession now row.pk)
        { state with database := state.database.writeCompletion now row.pk row.file }
  | marked {now file error} :
      Steps state (.markFileFailed now file error)
        { state with
          database := state.database.updateFiles (·.pk = file) (·.markFailed now error)
            (UploadFile.pk_markFailed now error) (UploadFile.batch_markFailed now error) }
  | notified {settings input ttlHours notifyHours} :
      Steps state (.notifyExpiringFiles settings input ttlHours notifyHours)
        { state with
          database := (notifyExpiringFiles settings input ttlHours notifyHours state.database).1 }
  | refused {action}
      (absent : ∀ now file error, action = .markFileFailed now file error →
        file ∉ state.database.files.keys) :
      Steps state action state

theorem portal_steps_of_step {state next : UploadState} {action : PortalAction}
    (stepped : portal.step state action = some next) : state.Steps action next := by
  cases action with
  | createUploadFile settings input user file batch =>
      cases stepped
      exact .uploaded
  | startUpload upload =>
      simp only [portal] at stepped
      split_ifs at stepped with uploading
      obtain ⟨grown, inserted, rfl⟩ := Option.map_eq_some_iff.mp stepped
      exact .started uploading inserted
  | createUploadSession now pk file totalSizeBytes chunkSizeBytes =>
      simp only [portal] at stepped
      split at stepped <;> cases stepped
      · next grown made =>
        obtain ⟨_, _, inserted⟩ := createUploadSession_eq_ok_iff.mp made
        exact .sessionCreated inserted
      · exact .refused nofun
  | recordUploadPart now session arguments =>
      cases stepped
      exact .partRecorded
  | completeUploadSession now session =>
      simp only [portal] at stepped
      split at stepped <;> cases stepped
      · next completed result =>
        obtain ⟨row, found, enough, rfl⟩ := completeUploadSession_eq_ok_iff.mp result
        obtain ⟨member, rfl⟩ := Table.get?_eq_some_iff.mp found
        exact .completed member enough
      · exact .refused nofun
  | markFileFailed now file error =>
      simp only [portal, markFileFailed] at stepped
      split at stepped
      · next marked result =>
        split at result <;> cases result
        cases stepped
        exact .marked
      · next failure result =>
        split at result <;> cases result
        next absent =>
        cases stepped
        refine .refused ?_
        intro _ _ _ same
        cases same
        exact absent
  | notifyExpiringFiles settings input ttlHours notifyHours =>
      cases stepped
      exact .notified

def isStoredEventOf (pk : Uuid) (event : OutboxEvent) : Bool :=
  event.eventType = "file.stored" ∧ event.aggregateId = pk.str

/-- The file has a hash of 64 characters and exactly one `file.stored` event. -/
structure UploadFile.Announced (upload : UploadFile) (events : EventTable) : Prop where
  hashed : upload.sha256.length = 64
  event : events.count (isStoredEventOf upload.pk) = 1

def StoredAnnounced (state : UploadState) : Prop :=
  ∀ upload ∈ state.database.files.rows, upload.status = .stored →
    upload.Announced state.database.events

/-- A completion that goes through finds its file no longer UPLOADING. -/
def CompletesNoUploading (state : UploadState) : PortalAction → Prop
  | .completeUploadSession _ session =>
      ∀ row ∈ state.database.sessions.rows, row.pk = session →
        row.totalParts ≤ state.database.receivedCount session →
          ∀ upload ∈ state.database.files.rows, upload.pk = row.file →
            upload.status ≠ .uploading
  | _ => True

/-- Besides, every `file.stored` event is of a file that is no longer UPLOADING. -/
structure Database.Consistent (database : Database) : Prop where
  stored : ∀ upload ∈ database.files.rows, upload.status = .stored →
    upload.Announced database.events
  origin : ∀ event ∈ database.events.rows, event.eventType = "file.stored" →
    ∃ upload ∈ database.files.rows, upload.pk.str = event.aggregateId ∧
      upload.status ≠ .uploading

theorem UploadFile.Announced.of_append {upload : UploadFile} {events grown : EventTable}
    {more : List OutboxEvent} (announced : upload.Announced events)
    (rows : grown.rows = events.rows ++ more)
    (other : ∀ event ∈ more, ¬ isStoredEventOf upload.pk event) : upload.Announced grown := by
  refine ⟨announced.hashed, ?_⟩
  have none : more.countP (isStoredEventOf upload.pk) = 0 :=
    List.countP_eq_zero.mpr other
  rw [Table.count, rows, List.countP_append, none]
  exact announced.event

namespace Database.Consistent

variable {database later : Database}

theorem of_same (consistent : database.Consistent) (files : later.files = database.files)
    (events : later.events = database.events) : later.Consistent := by
  refine ⟨?_, ?_⟩
  · rw [files, events]
    exact consistent.stored
  · rw [files, events]
    exact consistent.origin

theorem of_update {change : UploadFile → UploadFile} (consistent : database.Consistent)
    (files : later.files.rows = database.files.rows.map change)
    (keeps : ∀ upload ∈ database.files.rows, (change upload).pk = upload.pk ∧
      ((change upload).status = .stored →
        upload.status = .stored ∧ (change upload).sha256 = upload.sha256) ∧
      (upload.status ≠ .uploading → (change upload).status ≠ .uploading))
    (events : later.events = database.events) : later.Consistent := by
  refine ⟨?_, ?_⟩
  · intro upload member stored
    rw [files] at member
    obtain ⟨old, oldMember, rfl⟩ := List.mem_map.mp member
    obtain ⟨key, keepsStored, _⟩ := keeps old oldMember
    obtain ⟨oldStored, hash⟩ := keepsStored stored
    have announced := consistent.stored old oldMember oldStored
    rw [events]
    exact ⟨hash ▸ announced.hashed, key ▸ announced.event⟩
  · intro event member stored
    rw [events] at member
    obtain ⟨old, oldMember, key, done⟩ := consistent.origin event member stored
    obtain ⟨sameKey, _, keepsDone⟩ := keeps old oldMember
    refine ⟨change old, ?_, sameKey ▸ key, keepsDone done⟩
    rw [files]
    exact List.mem_map_of_mem oldMember

theorem of_insert {upload : UploadFile} (consistent : database.Consistent)
    (inserted : database.insertFile? upload = some later) (unstored : upload.status ≠ .stored) :
    later.Consistent := by
  obtain ⟨_, files, _, _, _, events⟩ := insertFile?_eq_some inserted
  refine ⟨?_, ?_⟩
  · intro other member stored
    rw [files, List.mem_append, List.mem_singleton] at member
    rw [events]
    rcases member with old | rfl
    · exact consistent.stored other old stored
    · exact absurd stored unstored
  · intro event member stored
    rw [events] at member
    obtain ⟨old, oldMember, key, done⟩ := consistent.origin event member stored
    exact ⟨old, files ▸ List.mem_append_left _ oldMember, key, done⟩

theorem not_isStoredEventOf (consistent : database.Consistent) {pk : Uuid}
    (fresh : pk ∉ database.files.keys) :
    ∀ event ∈ database.events.rows, ¬ isStoredEventOf pk event := by
  intro event member stored
  obtain ⟨isStored, aggregate⟩ : event.eventType = "file.stored" ∧ event.aggregateId = pk.str := by
    simpa [isStoredEventOf] using stored
  obtain ⟨old, oldMember, key, _⟩ := consistent.origin event member isStored
  obtain rfl : old.pk = pk := Uuid.str_injective (key.trans aggregate)
  exact fresh (Table.mem_keys_of_mem oldMember)

/-- A STORED file that is hashed and comes with its event. -/
theorem of_announcement {upload : UploadFile} {event : OutboxEvent} {grown : Database}
    {events : EventTable} (consistent : database.Consistent)
    (inserted : database.insertFile? upload = some grown) (stored : upload.status = .stored)
    (hashed : upload.sha256.length = 64) (rows : events.rows = grown.events.rows ++ [event])
    (isStored : event.eventType = "file.stored") (aggregate : event.aggregateId = upload.pk.str) :
    Consistent { grown with events } := by
  obtain ⟨fresh, files, _, _, _, same⟩ := insertFile?_eq_some inserted
  rw [same] at rows
  refine ⟨?_, ?_⟩
  · intro other member otherStored
    change other ∈ grown.files.rows at member
    rw [files, List.mem_append, List.mem_singleton] at member
    rcases member with old | rfl
    · apply (consistent.stored other old otherStored).of_append rows
      intro announcement single
      rw [List.mem_singleton.mp single]
      have different : upload.pk.str ≠ other.pk.str := by
        intro sameText
        exact fresh (Uuid.str_injective sameText ▸ Table.mem_keys_of_mem old)
      simp [isStoredEventOf, aggregate, different]
    · refine ⟨hashed, ?_⟩
      have none := List.countP_eq_zero.mpr (consistent.not_isStoredEventOf fresh)
      change events.count (isStoredEventOf other.pk) = 1
      rw [Table.count, rows, List.countP_append, none]
      simp [isStoredEventOf, isStored, aggregate]
  · intro announcement member announced
    change announcement ∈ events.rows at member
    rw [rows, List.mem_append, List.mem_singleton] at member
    change ∃ other ∈ grown.files.rows, _
    rw [files]
    rcases member with old | rfl
    · obtain ⟨other, otherMember, key, done⟩ := consistent.origin announcement old announced
      exact ⟨other, List.mem_append_left _ otherMember, key, done⟩
    · refine ⟨upload, List.mem_append_right _ List.mem_cons_self, aggregate.symm, ?_⟩
      rw [stored]
      decide

theorem of_events {events : EventTable} {more : List OutboxEvent}
    (consistent : database.Consistent) (rows : events.rows = database.events.rows ++ more)
    (other : ∀ event ∈ more, event.eventType ≠ "file.stored") :
    Consistent { database with events } := by
  refine ⟨?_, ?_⟩
  · intro upload member stored
    apply (consistent.stored upload member stored).of_append rows
    intro event eventMember
    simp [isStoredEventOf, other event eventMember]
  · intro event member stored
    change event ∈ events.rows at member
    rw [rows, List.mem_append] at member
    rcases member with old | new
    · exact consistent.origin event old stored
    · exact absurd stored (other event new)

theorem of_createUploadFile {settings : Settings} {input : UploadInput} {user : Option Nat}
    {file : UploadedFile} {batch : Option Uuid} {state : UploadState}
    (consistent : state.database.Consistent) :
    (createUploadFile settings input user file batch state).1.database.Consistent := by
  rcases createUploadFile_database settings input user file batch state with
    same | failed | stored
  · rw [same]
    exact consistent
  · obtain ⟨upload, status, inserted⟩ := failed
    exact consistent.of_insert inserted (by simp [status])
  · obtain ⟨upload, grown, events, status, hash, inserted, announced, result⟩ := stored
    rw [result]
    exact consistent.of_announcement inserted status (hash ▸ length_computeSha256 file)
      (announceStored_rows announced) rfl rfl

theorem of_notifyExpiringFiles {settings : Settings} {input : SweepInput}
    {ttlHours notifyHours : Option Int} (consistent : database.Consistent) :
    (notifyExpiringFiles settings input ttlHours notifyHours database).1.Consistent := by
  obtain ⟨more, rows, expiring⟩ := announceAll_rows input (ttlHours.getD settings.ttlHours)
    (input.order.arrange (database.files.rows.filter (·.isExpiring (input.now -
      hours (ttlHours.getD settings.ttlHours - notifyHours.getD settings.notifyHours)))))
    ⟨0, 0⟩ database.events
  apply consistent.of_events rows
  intro event member
  rw [expiring event member]
  decide

theorem of_writeCompletion {now : Time} {session file : Uuid} (consistent : database.Consistent)
    (done : ∀ upload ∈ database.files.rows, upload.pk = file → upload.status ≠ .uploading) :
    (database.writeCompletion now session file).Consistent := by
  apply consistent.of_update files_writeCompletion _ events_writeCompletion
  intro upload member
  have kept : ¬ (upload.pk = file ∧ upload.status = .uploading) :=
    fun both => done upload member both.1 both.2
  rw [if_neg kept]
  exact ⟨rfl, fun stored => ⟨stored, rfl⟩, id⟩

theorem of_markFailed {now : Time} {file : Uuid} {error : String}
    (consistent : database.Consistent) :
    (database.updateFiles (·.pk = file) (·.markFailed now error)
      (UploadFile.pk_markFailed now error) (UploadFile.batch_markFailed now error)).Consistent := by
  have rows := Table.rows_updateWhere database.files (fun row => row.pk = file)
    (·.markFailed now error) (UploadFile.pk_markFailed now error)
  refine consistent.of_update rows ?_ rfl
  intro upload _
  split
  · exact ⟨rfl, fun stored => absurd stored (by simp [UploadFile.markFailed]),
      fun _ => by simp [UploadFile.markFailed]⟩
  · exact ⟨rfl, fun stored => ⟨stored, rfl⟩, id⟩

theorem step {state next : UploadState} {action : PortalAction}
    (consistent : state.database.Consistent) (condition : CompletesNoUploading state action)
    (stepped : portal.step state action = some next) : next.database.Consistent := by
  cases portal_steps_of_step stepped with
  | uploaded => exact consistent.of_createUploadFile
  | started uploading inserted => exact consistent.of_insert inserted (by simp [uploading])
  | sessionCreated inserted =>
      obtain ⟨_, _, _, files, _, _, events⟩ := insertSession?_eq_some inserted
      exact consistent.of_same files events
  | partRecorded => exact consistent.of_same recordUploadPart_frame.1 recordUploadPart_frame.2
  | completed member enough => exact consistent.of_writeCompletion (condition _ member rfl enough)
  | marked => exact consistent.of_markFailed
  | notified => exact consistent.of_notifyExpiringFiles
  | refused _ => exact consistent

/-- Storing an UPLOADING file announces nothing. -/
theorem completesNoUploading {state next : UploadState} {action : PortalAction}
    (consistent : state.database.Consistent)
    (stepped : portal.step state action = some next) (announced : StoredAnnounced next) :
    CompletesNoUploading state action := by
  cases action with
  | completeUploadSession now session =>
      intro row member key enough upload uploadMember uploadKey uploading
      simp only [portal, completeUploadSession_of_enough member key enough] at stepped
      cases stepped
      have image : upload.store ∈
          (state.database.writeCompletion now session row.file).files.rows := by
        rw [files_writeCompletion]
        exact List.mem_map.mpr ⟨upload, uploadMember, if_pos ⟨uploadKey, uploading⟩⟩
      have single := (announced _ image rfl).event
      -- The one event would have been there before the file was stored.
      obtain ⟨event, eventMember, isStored⟩ : ∃ event ∈ state.database.events.rows,
          isStoredEventOf upload.pk event := by
        apply List.countP_pos_iff.mp
        have same : state.database.events.rows.countP (isStoredEventOf upload.pk) = 1 := single
        omega
      obtain ⟨stored, aggregate⟩ : event.eventType = "file.stored" ∧
          event.aggregateId = upload.pk.str := by simpa [isStoredEventOf] using isStored
      obtain ⟨owner, ownerMember, ownerKey, done⟩ := consistent.origin event eventMember stored
      have same : owner = upload := Table.eq_of_key_eq ownerMember uploadMember
        (Uuid.str_injective (ownerKey.trans aggregate))
      exact done (same ▸ uploading)
  | _ => trivial

end Database.Consistent

theorem consistent_empty : UploadState.empty.database.Consistent := by
  constructor
  · intro upload none
    cases none
  · intro event none
    cases none

/-- In every sequence of calls from an empty database, every STORED file is hashed and
announced once if and only if no session is completed whose file is still UPLOADING. -/
theorem stored_files_announced_iff (actions : List PortalAction) :
    portal.Always StoredAnnounced .empty actions ↔
      portal.Meets CompletesNoUploading .empty actions := by
  let invariant := fun state : UploadState => state.database.Consistent
  constructor
  · intro always
    exact Machine.meets_of_always invariant
      (fun _ _ _ consistent stepped announced =>
        consistent.completesNoUploading stepped announced)
      (fun _ _ _ consistent condition stepped => consistent.step condition stepped)
      consistent_empty always
  · intro meets
    exact Machine.always_of_meets invariant (fun _ consistent => consistent.stored)
      (fun _ _ _ consistent condition stepped => consistent.step condition stepped)
      consistent_empty meets

/-! ## Sample values -/

namespace Sample

def chunkExpected : Database :=
  { fileStarted with
    sessions := ⟨[newSession 0 (uuid 1) file.pk 500 500], by decide⟩
    sessionFile := by
      intro session member
      rw [List.mem_singleton.mp member]
      decide
    partSession := by decide }

theorem chunkExpected_created :
    createUploadSession 0 (uuid 1) file.pk 500 (some 500) fileStarted = .ok chunkExpected := by
  refine createUploadSession_eq_ok_iff.mpr ⟨by decide, ?_, rfl⟩
  simp [UploadSession.fitsColumns, newSession, totalParts_mul 1 500 (by decide) (by decide),
    positiveIntegerMax, positiveBigIntegerMax]

def chunk : PartArguments := ⟨1, 0, 500, ""⟩

def chunkReceived : Database := (recordUploadPart 0 (uuid 1) chunk chunkExpected).1

theorem chunkReceived_completes :
    completeUploadSession 0 (uuid 1) chunkReceived =
      .ok (chunkReceived.writeCompletion 0 (uuid 1) file.pk) := by
  let row := (newSession 0 (uuid 1) file.pk 500 500).counted 500
  have member : row ∈ chunkReceived.sessions.rows := List.mem_cons_self
  refine completeUploadSession_of_enough member rfl ?_
  exact (totalParts_mul 1 500 (by decide) (by decide)).le

def chunkedUpload : List PortalAction :=
  [.startUpload file, .createUploadSession 0 (uuid 1) file.pk 500 (some 500),
    .recordUploadPart 0 (uuid 1) chunk, .completeUploadSession 0 (uuid 1)]

theorem chunkedUpload_run : portal.run .empty chunkedUpload =
    some ⟨chunkReceived.writeCompletion 0 (uuid 1) file.pk, .empty⟩ := by
  refine portal.run_cons_eq_some_iff.mpr ⟨⟨fileStarted, .empty⟩, rfl, ?_⟩
  refine portal.run_cons_eq_some_iff.mpr ⟨⟨chunkExpected, .empty⟩, ?_, ?_⟩
  · simp only [portal, chunkExpected_created]
  refine portal.run_cons_eq_some_iff.mpr ⟨⟨chunkReceived, .empty⟩, rfl, ?_⟩
  refine portal.run_cons_eq_some_iff.mpr ⟨_, ?_, rfl⟩
  simp only [portal, chunkReceived_completes]

end Sample

/-- The file of a completed session is STORED without a hash and without an event. -/
theorem chunked_upload_is_not_announced :
    ¬ ∀ actions : List PortalAction, portal.Always StoredAnnounced .empty actions := by
  intro announced
  have final := announced Sample.chunkedUpload Sample.chunkedUpload [] _ (by simp)
    Sample.chunkedUpload_run
  have hashed := (final Sample.file.store List.mem_cons_self rfl).hashed
  exact absurd hashed (by decide)

end Doorito.Portal
