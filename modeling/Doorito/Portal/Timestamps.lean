import Doorito.Common.BatchDelivery
import Doorito.Foundation.Stamps
import Doorito.Portal.Batches
import Doorito.Portal.SessionProperties
import Doorito.Portal.UploadProperties

/-! When `updated_at` dates the last change of a row. A save that names the column writes the
time of the save, and an update of a query set changes only the columns that it names. -/

set_option autoImplicit false

namespace Doorito.Portal

open Foundation Common

/-- Whole calls, one after the other. -/
inductive WritingOperation where
  | emitEvent (now : Time) (pk : Uuid) (arguments : EmitArguments)
  | processPendingEvents (input : RunInput)
  | retryFailedEvents (now : Time) (selected : List Uuid)
  | createUploadFile (settings : Settings) (input : UploadInput) (user : Option Nat)
      (file : UploadedFile) (batch : Option Uuid)
  | markFileFailed (now : Time) (file : Uuid) (error : String)
  | finalizeBatch (now : Time) (batch : Uuid)
  | createUploadSession (now : Time) (pk file : Uuid) (totalSizeBytes : Nat)
      (chunkSizeBytes : Option Nat)
  | recordUploadPart (now : Time) (session : Uuid) (arguments : PartArguments)
  | completeUploadSession (now : Time) (session : Uuid)

namespace WritingOperation

/-- The first reading of the clock. -/
def begins : WritingOperation → Time
  | .emitEvent now _ _ | .retryFailedEvents now _ | .markFileFailed now _ _
  | .finalizeBatch now _ | .createUploadSession now _ _ _ _ | .recordUploadPart now _ _
  | .completeUploadSession now _ => now
  | .processPendingEvents input => input.fetchedAt
  | .createUploadFile _ input _ _ _ => input.now

/-- The reading at which the operation writes. -/
def time : WritingOperation → Time
  | .emitEvent now _ _ | .retryFailedEvents now _ | .markFileFailed now _ _
  | .finalizeBatch now _ | .createUploadSession now _ _ _ _ | .recordUploadPart now _ _
  | .completeUploadSession now _ => now
  | .processPendingEvents input => input.updatedAt
  | .createUploadFile _ input _ _ _ => input.now

/-- What is committed when the call returns or raises. -/
def perform (state : UploadState) : WritingOperation → UploadState
  | .emitEvent now pk arguments =>
      match Doorito.Common.emitEvent now pk arguments state.database.events with
      | .ok events => { state with database := { state.database with events } }
      | .error _ => state
  | .processPendingEvents input =>
      { state with
        database := { state.database with
          events := (Doorito.Common.processPendingEvents input state.database.events).events } }
  | .retryFailedEvents now selected =>
      { state with
        database := { state.database with
          events := Doorito.Common.retryFailedEvents now selected state.database.events } }
  | .createUploadFile settings input user file batch =>
      (Doorito.Portal.createUploadFile settings input user file batch state).1
  | .markFileFailed now file error =>
      match Doorito.Portal.markFileFailed now file error state.database with
      | .ok database => { state with database }
      | .error _ => state
  | .finalizeBatch now batch =>
      match Doorito.Portal.finalizeBatch now batch state.database with
      | .ok database => { state with database }
      | .error _ => state
  | .createUploadSession now pk file totalSizeBytes chunkSizeBytes =>
      match Doorito.Portal.createUploadSession now pk file totalSizeBytes chunkSizeBytes
          state.database with
      | .ok database => { state with database }
      | .error _ => state
  | .recordUploadPart now session arguments =>
      { state with
        database := (Doorito.Portal.recordUploadPart now session arguments state.database).1 }
  | .completeUploadSession now session =>
      match Doorito.Portal.completeUploadSession now session state.database with
      | .ok database => { state with database }
      | .error _ => state

end WritingOperation

/-- The operations at strictly increasing times. -/
def writers : Machine (Clocked UploadState Time) WritingOperation where
  step world operation :=
    if world.clock < operation.begins ∧ operation.begins ≤ operation.time then
      some ⟨operation.perform world.state, operation.time⟩
    else none

/-! ## The five tables -/

namespace Database

/-- No row was written after the clock reading. -/
structure StampedBy (database : Database) (clock : Time) : Prop where
  batches : ∀ row ∈ database.batches.rows, row.updatedAt ≤ clock
  files : ∀ row ∈ database.files.rows, row.updatedAt ≤ clock
  sessions : ∀ row ∈ database.sessions.rows, row.updatedAt ≤ clock
  parts : ∀ row ∈ database.parts.rows, row.updatedAt ≤ clock
  events : ∀ row ∈ database.events.rows, row.updatedAt ≤ clock

structure StampedAt (time : Time) (before after : Database) : Prop where
  batches : Table.StampedAt UploadBatch.updatedAt time before.batches after.batches
  files : Table.StampedAt UploadFile.updatedAt time before.files after.files
  sessions : Table.StampedAt UploadSession.updatedAt time before.sessions after.sessions
  parts : Table.StampedAt UploadPart.updatedAt time before.parts after.parts
  events : Table.StampedAt OutboxEvent.updatedAt time before.events after.events

structure KeepsStamps (time : Time) (before after : Database) : Prop where
  batches : Table.KeepsStamps UploadBatch.updatedAt time before.batches after.batches
  files : Table.KeepsStamps UploadFile.updatedAt time before.files after.files
  sessions : Table.KeepsStamps UploadSession.updatedAt time before.sessions after.sessions
  parts : Table.KeepsStamps UploadPart.updatedAt time before.parts after.parts
  events : Table.KeepsStamps OutboxEvent.updatedAt time before.events after.events

/-- In the later database, `updated_at` of every row that the write at this time has changed
is not earlier. -/
structure DatesChanges (time : Time) (before after later : Database) : Prop where
  batches : Table.DatesChanges UploadBatch.updatedAt time before.batches after.batches
    later.batches
  files : Table.DatesChanges UploadFile.updatedAt time before.files after.files later.files
  sessions : Table.DatesChanges UploadSession.updatedAt time before.sessions after.sessions
    later.sessions
  parts : Table.DatesChanges UploadPart.updatedAt time before.parts after.parts later.parts
  events : Table.DatesChanges OutboxEvent.updatedAt time before.events after.events later.events

section Stamps

variable {before middle after later final : Database} {time now : Time}

theorem StampedAt.refl (database : Database) : StampedAt time database database :=
  ⟨.refl _, .refl _, .refl _, .refl _, .refl _⟩

theorem StampedAt.trans (first : StampedAt time before middle)
    (second : StampedAt time middle after) : StampedAt time before after :=
  ⟨first.batches.trans second.batches, first.files.trans second.files,
    first.sessions.trans second.sessions, first.parts.trans second.parts,
    first.events.trans second.events⟩

theorem StampedAt.keepsStamps (stamped : StampedAt time before after) :
    KeepsStamps time before after :=
  ⟨stamped.batches.keepsStamps, stamped.files.keepsStamps, stamped.sessions.keepsStamps,
    stamped.parts.keepsStamps, stamped.events.keepsStamps⟩

theorem KeepsStamps.stampedBy (kept : KeepsStamps time before after) {clock : Time}
    (bounded : before.StampedBy clock) (ordered : clock ≤ time) : after.StampedBy time :=
  ⟨kept.batches.le bounded.batches ordered, kept.files.le bounded.files ordered,
    kept.sessions.le bounded.sessions ordered, kept.parts.le bounded.parts ordered,
    kept.events.le bounded.events ordered⟩

theorem StampedAt.datesChanges (stamped : StampedAt time before after) :
    DatesChanges time before after after :=
  ⟨stamped.batches.datesChanges, stamped.files.datesChanges, stamped.sessions.datesChanges,
    stamped.parts.datesChanges, stamped.events.datesChanges⟩

theorem DatesChanges.step (dates : DatesChanges time before after later)
    (stamped : StampedAt now later final) (ordered : time ≤ now) :
    DatesChanges time before after final :=
  ⟨dates.batches.step stamped.batches ordered, dates.files.step stamped.files ordered,
    dates.sessions.step stamped.sessions ordered, dates.parts.step stamped.parts ordered,
    dates.events.step stamped.events ordered⟩

end Stamps

end Database

/-! ## The operations that forget the column -/

/-- The part goes in and the counters of its session are updated. -/
def RecordsPart (database : Database) (session : Uuid) (arguments : PartArguments) : Prop :=
  arguments.fitsColumns ∧ (session, arguments.partNumber) ∉ database.parts.keys ∧
    ∃ row ∈ database.sessions.rows, row.pk = session ∧ row.countFits arguments.sizeBytes

/-- The session is complete and its file still UPLOADING. -/
def StoresFile (database : Database) (session : Uuid) : Prop :=
  ∃ row ∈ database.sessions.rows, row.pk = session ∧
    row.totalParts ≤ database.receivedCount session ∧
      ∃ upload ∈ database.files.rows, upload.pk = row.file ∧ upload.status = .uploading

/-- A selected event is FAILED. -/
def ResetsEvent (database : Database) (selected : List Uuid) : Prop :=
  ∃ event ∈ database.events.rows, event.status = .failed ∧ event.pk ∈ selected

/-- The operation stamps every row that it changes. -/
def Refreshes (world : Clocked UploadState Time) : WritingOperation → Prop
  | .retryFailedEvents _ selected => ¬ ResetsEvent world.state.database selected
  | .recordUploadPart _ session arguments =>
      ¬ RecordsPart world.state.database session arguments
  | .completeUploadSession _ session => ¬ StoresFile world.state.database session
  | _ => True

/-! ## What each operation stamps -/

section Events

variable {database : Database} {events : EventTable} {time now : Time}

theorem Database.StampedAt.withEvents
    (stamped : Table.StampedAt OutboxEvent.updatedAt time database.events events) :
    Database.StampedAt time database { database with events } :=
  ⟨.refl _, .refl _, .refl _, .refl _, stamped⟩

theorem processPendingEvents_rows (input : RunInput) (events : EventTable) :
    (processPendingEvents input events).events = events ∨
      ∃ results, (processPendingEvents input events).events.rows = events.rows.map
        (updateRow input.updatedAt input.random results (input.batch events)) := by
  have distinct := input.batch_nodup events
  rw [processPendingEvents_eq]
  by_cases can : input.CanCommit (input.batch events) events
  · obtain ⟨_, _, rows, _⟩ := deliverAndUpdate_of_canCommit distinct can
    exact .inr ⟨_, rows⟩
  · exact .inl (deliverAndUpdate_of_not_canCommit distinct can).1

theorem processPendingEvents_stampedAt (input : RunInput) (events : EventTable) :
    Table.StampedAt OutboxEvent.updatedAt input.updatedAt events
      (processPendingEvents input events).events := by
  rcases processPendingEvents_rows input events with same | ⟨results, rows⟩
  · rw [same]
    exact .refl _
  · refine Table.stampedAt_of_rows_eq_map rows fun row _ => ?_
    rcases updateRow_cases (input.batch events) row with kept | ⟨_, _, _, _, _, saved⟩
    · exact .inl kept
    · rw [saved]
      exact .inr rfl

theorem emitEvent_stampedAt {pk : Uuid} {arguments : EmitArguments} {grown : EventTable}
    (emitted : emitEvent now pk arguments events = .ok grown) :
    Table.StampedAt OutboxEvent.updatedAt now events grown :=
  Table.stampedAt_append (emitEvent_rows emitted) rfl

theorem retryFailedEvents_stampedAt {selected : List Uuid}
    (none : ¬ ResetsEvent database selected) :
    Table.StampedAt OutboxEvent.updatedAt now database.events
      (retryFailedEvents now selected database.events) := by
  refine Table.stampedAt_updateWhere (OutboxEvent.pk_reset now) fun event member chosen => ?_
  have both : event.status = .failed ∧ event.pk ∈ selected := of_decide_eq_true chosen
  exact absurd ⟨event, member, both⟩ none

end Events

section Uploads

variable {database left : Database} {now : Time}

theorem insertFile?_stampedAt {upload : UploadFile}
    (inserted : database.insertFile? upload = some left) :
    database.StampedAt upload.updatedAt left := by
  obtain ⟨_, files, batches, sessions, parts, events⟩ := Database.insertFile?_eq_some inserted
  refine ⟨?_, Table.stampedAt_append files rfl, ?_, ?_, ?_⟩
  · exact batches ▸ .refl _
  · exact sessions ▸ .refl _
  · exact parts ▸ .refl _
  · exact events ▸ .refl _

theorem createUploadFile_stampedAt (settings : Settings) (input : UploadInput)
    (user : Option Nat) (file : UploadedFile) (batch : Option Uuid) (state : UploadState) :
    state.database.StampedAt input.now
      (createUploadFile settings input user file batch state).1.database := by
  cases outcome : validateFile settings file none with
  | error invalid =>
      rw [createUploadFile_of_invalid outcome]
      cases created : createWithBlob input file.content
          (failedUpload input user file batch invalid) state with
      | mk saved result =>
          cases result with
          | error error =>
              rw [createWithBlob_error created]
              exact .refl _
          | ok upload =>
              obtain ⟨shape, inserted⟩ := createWithBlob_ok created
              have stamp : upload.updatedAt = input.now := by rw [shape]; rfl
              exact stamp ▸ insertFile?_stampedAt inserted
  | ok valid =>
      rw [createUploadFile_of_valid outcome]
      rcases storeUpload_database input file.content (storedUpload input user (file.seek 0) batch
          valid.1 valid.2 (computeSha256 file).1) state with
        same | ⟨upload, grown, events, shape, inserted, announced, result⟩
      · rw [same]
        exact .refl _
      · have stamp : upload.updatedAt = input.now := by rw [shape]; rfl
        rw [result]
        refine (stamp ▸ insertFile?_stampedAt inserted).trans (.withEvents ?_)
        exact Table.stampedAt_append (announceStored_rows announced) rfl

theorem markFileFailed_stampedAt {file : Uuid} {error : String}
    (marked : markFileFailed now file error database = .ok left) :
    database.StampedAt now left := by
  unfold markFileFailed at marked
  split at marked <;> cases marked
  exact ⟨.refl _, Table.stampedAt_updateWhere (UploadFile.pk_markFailed now error) fun _ _ _ => rfl,
    .refl _, .refl _, .refl _⟩

theorem finalizeBatch_stampedAt {batch : Uuid}
    (finalized : finalizeBatch now batch database = .ok left) : database.StampedAt now left := by
  unfold finalizeBatch at finalized
  split at finalized <;> cases finalized
  exact ⟨Table.stampedAt_updateWhere (UploadBatch.pk_finalized now _) fun _ _ _ => rfl,
    .refl _, .refl _, .refl _, .refl _⟩

end Uploads

section Sessions

variable {database left : Database} {now : Time} {session : Uuid}

theorem createUploadSession_stampedAt {pk file : Uuid} {totalSizeBytes : Nat}
    {chunkSizeBytes : Option Nat}
    (created : createUploadSession now pk file totalSizeBytes chunkSizeBytes database = .ok left) :
    database.StampedAt now left := by
  obtain ⟨_, _, inserted⟩ := createUploadSession_eq_ok_iff.mp created
  obtain ⟨_, _, batches, files, sessions, parts, events⟩ :=
    Database.insertSession?_eq_some inserted
  refine ⟨?_, ?_, Table.stampedAt_append sessions rfl, ?_, ?_⟩
  · exact batches ▸ .refl _
  · exact files ▸ .refl _
  · exact parts ▸ .refl _
  · exact events ▸ .refl _

theorem insertPart_stampedAt {arguments : PartArguments}
    (inserted : insertPart now session arguments database = .ok left) :
    database.StampedAt now left := by
  obtain ⟨_, stored⟩ := insertPart_eq_ok_iff.mp inserted
  obtain ⟨_, _, batches, files, sessions, parts, events⟩ := Database.insertPart?_eq_some stored
  refine ⟨?_, ?_, ?_, Table.stampedAt_append parts rfl, ?_⟩
  · exact batches ▸ .refl _
  · exact files ▸ .refl _
  · exact sessions ▸ .refl _
  · exact events ▸ .refl _

/-- The outcomes of `record_upload_part`: nothing, the part alone, or the part and the count. -/
theorem recordUploadPart_cases (now : Time) (session : Uuid) (arguments : PartArguments)
    (database : Database) :
    (recordUploadPart now session arguments database).1 = database ∨
      ∃ inserted, insertPart now session arguments database = .ok inserted ∧
        ((recordUploadPart now session arguments database).1 = inserted ∨
          RecordsPart database session arguments ∧
            (recordUploadPart now session arguments database).1 =
              inserted.writeCount session arguments.sizeBytes) := by
  unfold recordUploadPart
  cases inserted : insertPart now session arguments database with
  | error error => exact .inl rfl
  | ok grown =>
      refine .inr ⟨grown, rfl, ?_⟩
      cases counted : countPart session arguments.sizeBytes grown with
      | error error => exact .inl (by simp only [counted])
      | ok result =>
          obtain ⟨fits, rfl⟩ := countPart_eq_ok_iff.mp counted
          obtain ⟨columns, stored⟩ := insertPart_eq_ok_iff.mp inserted
          obtain ⟨fresh, known, _, _, sessions, _⟩ := Database.insertPart?_eq_some stored
          obtain ⟨row, member, key⟩ := Table.mem_keys.mp known
          refine .inr ⟨⟨columns, fresh, row, member, key, ?_⟩, by simp only [counted]⟩
          exact fits row (sessions ▸ member) key

theorem recordUploadPart_of_recordsPart (now : Time) {arguments : PartArguments}
    (records : RecordsPart database session arguments) :
    ∃ inserted, insertPart now session arguments database = .ok inserted ∧
      (recordUploadPart now session arguments database).1 =
        inserted.writeCount session arguments.sizeBytes := by
  obtain ⟨columns, fresh, row, member, key, fits⟩ := records
  have known : session ∈ database.sessions.keys := key ▸ Table.mem_keys_of_mem member
  obtain ⟨inserted, ran⟩ := insertPart_of_fresh now columns fresh known
  obtain ⟨_, stored⟩ := insertPart_eq_ok_iff.mp ran
  obtain ⟨_, _, _, _, sessions, _⟩ := Database.insertPart?_eq_some stored
  refine ⟨inserted, ran, ?_⟩
  simp only [recordUploadPart, ran, countPart_of_fits (sessions ▸ member) key fits]

theorem recordUploadPart_stampedAt {arguments : PartArguments}
    (forgets : ¬ RecordsPart database session arguments) :
    database.StampedAt now (recordUploadPart now session arguments database).1 := by
  rcases recordUploadPart_cases now session arguments database with
    same | ⟨inserted, ran, same | ⟨records, _⟩⟩
  · rw [same]
    exact .refl _
  · rw [same]
    exact insertPart_stampedAt ran
  · exact absurd records forgets

theorem recordUploadPart_keepsStamps {arguments : PartArguments} :
    database.KeepsStamps now (recordUploadPart now session arguments database).1 := by
  rcases recordUploadPart_cases now session arguments database with
    same | ⟨inserted, ran, same | ⟨_, counted⟩⟩
  · rw [same]
    exact (Database.StampedAt.refl _).keepsStamps
  · rw [same]
    exact (insertPart_stampedAt ran).keepsStamps
  · have stamped := insertPart_stampedAt ran
    have kept := stamped.keepsStamps
    obtain ⟨_, stored⟩ := insertPart_eq_ok_iff.mp ran
    obtain ⟨_, _, _, _, sessions, _⟩ := Database.insertPart?_eq_some stored
    rw [counted]
    refine ⟨kept.batches, kept.files, ?_, kept.parts, kept.events⟩
    rw [Database.writeCount, Database.updateSessions, ← sessions]
    exact Table.keepsStamps_updateWhere (UploadSession.pk_counted _) fun _ => rfl

theorem completeUploadSession_sessions {file : Uuid} :
    Table.StampedAt UploadSession.updatedAt now database.sessions
      (database.writeCompletion now session file).sessions :=
  Table.stampedAt_updateWhere (UploadSession.pk_completed now) fun _ _ _ => rfl

theorem completeUploadSession_stampedAt (forgets : ¬ StoresFile database session)
    (completed : completeUploadSession now session database = .ok left) :
    database.StampedAt now left := by
  obtain ⟨row, found, enough, rfl⟩ := completeUploadSession_eq_ok_iff.mp completed
  obtain ⟨member, key⟩ := Table.get?_eq_some_iff.mp found
  refine ⟨.refl _, ?_, completeUploadSession_sessions, .refl _, .refl _⟩
  refine Table.stampedAt_updateWhere UploadFile.pk_store fun upload uploadMember chosen => ?_
  have both : upload.pk = row.file ∧ upload.status = .uploading := of_decide_eq_true chosen
  exact absurd ⟨row, member, key, enough, upload, uploadMember, both⟩ forgets

theorem completeUploadSession_keepsStamps
    (completed : completeUploadSession now session database = .ok left) :
    database.KeepsStamps now left := by
  obtain ⟨row, _, _, rfl⟩ := completeUploadSession_eq_ok_iff.mp completed
  refine ⟨(Table.StampedAt.refl _).keepsStamps, ?_, completeUploadSession_sessions.keepsStamps,
    (Table.StampedAt.refl _).keepsStamps, (Table.StampedAt.refl _).keepsStamps⟩
  exact Table.keepsStamps_updateWhere UploadFile.pk_store fun _ => rfl

end Sessions

end Doorito.Portal
