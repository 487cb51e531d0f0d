import Doorito.Common.Dispatch
import Doorito.Portal.ExpiryNotices
import Doorito.Portal.StoredUpload

/-! The upload services on a connection (`portal/services/uploads.py`), with their atomic
blocks and the delivery tasks that wait for the commit. What they do to the database and the
storage, and what they return, is what the model without a connection says. -/

set_option autoImplicit false

namespace Doorito.Portal

open Foundation Common

abbrev UploadProgram (Result : Type) : Type 1 :=
  Program Database Storage Uuid (CallError UploadError) Result

abbrev UploadConnection : Type := Connection Database Storage Uuid

/-- The outbox is one of the tables. -/
def outboxStore : EventStore Database where
  events database := database.events
  put database events := { database with events }
  events_put _ _ := rfl

def UploadConnection.state (conn : UploadConnection) : UploadState :=
  ⟨conn.database, conn.outside⟩

/-! ## The direct upload -/

def createWithBlobCall (input : UploadInput) (content : Bytes) (upload : UploadFile) :
    UploadProgram UploadFile :=
  .query fun database storage =>
    let (state, result) := createWithBlob input content upload ⟨database, storage⟩
    (state.storage, (result.map fun saved => (state.database, saved)).mapError .raised)

/-- A statement that may fail for a reason outside of this code. -/
def failingCall (fails : Bool) (error : UploadError) : UploadProgram Unit :=
  .query fun database storage =>
    (storage, if fails then .error (.raised error) else .ok (database, ()))

def fileUrl (input : UploadInput) (upload : UploadFile) : Except UploadError String :=
  if input.fails .fileUrl then .error (.raised .fileUrl) else upload.url input.url

def announceStoredCall (input : UploadInput) (upload : UploadFile) : UploadProgram Uuid :=
  .bind (.compute ((fileUrl input upload).mapError .raised)) fun url =>
    .bind (failingCall (input.fails .insertEvent) (.raised .insertEvent)) fun _ =>
      emitEventCall outboxStore .database input.now input.eventPk
        (upload.emission "file.stored" (upload.payload url))

/-- The body of the atomic block of a valid file. -/
def storeUploadCall (input : UploadInput) (content : Bytes) (upload : UploadFile) :
    UploadProgram UploadFile :=
  .bind (createWithBlobCall input content upload) fun upload =>
    .bind (announceStoredCall input upload) fun _ => .compute (.ok upload)

def commitError (input : UploadInput) : Option (CallError UploadError) :=
  if input.fails .commit then some (.raised (.raised .commit)) else none

def createUploadFileCall (settings : Settings) (input : UploadInput) (user : Option Nat)
    (file : UploadedFile) (batch : Option Uuid) : UploadProgram UploadFile :=
  match validateFile settings file none with
  | .error invalid =>
      createWithBlobCall input file.content (failedUpload input user file batch invalid)
  | .ok (contentType, sizeBytes) =>
      let (sha256, file) := computeSha256 file
      .atomic (commitError input)
        (storeUploadCall input file.content
          (storedUpload input user file batch contentType sizeBytes sha256))

section Direct

variable {input : UploadInput} {content : Bytes} {upload : UploadFile}

theorem createWithBlobCall_emitsOnly :
    EmitsOnly outboxStore (createWithBlobCall input content upload) := by
  refine .query ?_
  intro database storage after saved returned
  dsimp only at returned
  cases created : createWithBlob input content upload ⟨database, storage⟩ with
  | mk left result =>
      rw [created] at returned
      cases result with
      | error error => cases returned
      | ok file =>
          cases returned
          rw [EventStore.emitted, EventStore.emitted]
          exact congrArg Table.keys (createWithBlob_events created).2.2

theorem failingCall_emitsOnly (fails : Bool) (error : UploadError) :
    EmitsOnly outboxStore (failingCall fails error) := by
  refine .query ?_
  intro database storage after result returned
  dsimp only at returned
  split_ifs at returned
  cases returned
  rfl

theorem announceStoredCall_emitsOnly :
    EmitsOnly outboxStore (announceStoredCall input upload) :=
  .bind (.compute _) fun _ =>
    .bind (failingCall_emitsOnly _ _) fun _ => emitEventCall_emitsOnly _ _ _ _ _

theorem storeUploadCall_emitsOnly :
    EmitsOnly outboxStore (storeUploadCall input content upload) :=
  .bind createWithBlobCall_emitsOnly fun _ =>
    .bind announceStoredCall_emitsOnly fun _ => .compute _

theorem createUploadFileCall_emitsOnly (settings : Settings) (user : Option Nat)
    (file : UploadedFile) (batch : Option Uuid) :
    EmitsOnly outboxStore (createUploadFileCall settings input user file batch) := by
  unfold createUploadFileCall
  split
  · exact createWithBlobCall_emitsOnly
  · exact .atomic storeUploadCall_emitsOnly

variable {backend : Backend Uuid (CallError UploadError)} {conn : UploadConnection}
  (clear : conn.needsRollback = false)

section Create

variable {left : UploadState}

include clear in
theorem createWithBlobCall_of_ok {saved : UploadFile}
    (created : createWithBlob input content upload ⟨conn.database, conn.outside⟩ =
      (left, .ok saved)) :
    (createWithBlobCall input content upload).run backend conn =
      ({ conn with database := left.database, outside := left.storage }, .ok saved) := by
  simp [createWithBlobCall, Program.run, clear, created, Except.map, Except.mapError]

include clear in
theorem createWithBlobCall_of_error {error : UploadError}
    (created : createWithBlob input content upload ⟨conn.database, conn.outside⟩ =
      (left, .error error)) :
    (createWithBlobCall input content upload).run backend conn =
      ({ conn with outside := left.storage, needsRollback := conn.inAtomicBlock },
        .error (.raised error)) := by
  simp [createWithBlobCall, Program.run, clear, created, Except.map, Except.mapError]

end Create

section Announce

include clear in
theorem announceStoredCall_of_ok (inBlock : conn.inAtomicBlock = true) {events : EventTable}
    (announced : announceStored input upload conn.database.events = .ok events) :
    (announceStoredCall input upload).run backend conn =
      ({ conn with
          database := { conn.database with events }
          runOnCommit := conn.runOnCommit ++ [input.eventPk] }, .ok input.eventPk) := by
  simp only [announceStored] at announced
  split_ifs at announced with urlFails insertFails
  · split at announced <;> cases announced
  · split at announced
    · cases announced
    · rename_i url named
      rw [mapError_eq_ok_iff] at announced
      simp [announceStoredCall, fileUrl, failingCall, emitEventCall, Program.run,
        Except.mapError, urlFails, named, insertFails, clear, inBlock, outboxStore, announced]

include clear in
theorem announceStoredCall_of_error {error : UploadError}
    (announced : announceStored input upload conn.database.events = .error error) :
    ∃ after, (announceStoredCall input upload).run backend conn =
      (after, .error (.raised error)) ∧ after.outside = conn.outside := by
  suffices raised : ((announceStoredCall input upload).run backend conn).2 =
        .error (.raised error) ∧
      ((announceStoredCall input upload).run backend conn).1.outside = conn.outside from
    ⟨_, Prod.ext rfl raised.1, raised.2⟩
  by_cases urlFails : input.fails .fileUrl = true
  · have is : UploadError.raised .fileUrl = error := by
      simpa [announceStored, urlFails] using announced
    simp [announceStoredCall, fileUrl, Program.run, urlFails, Except.mapError, is]
  · cases url : upload.url input.url with
    | error other =>
        have is : other = error := by simpa [announceStored, urlFails, url] using announced
        simp [announceStoredCall, fileUrl, Program.run, urlFails, url, Except.mapError, is]
    | ok address =>
        by_cases insertFails : input.fails .insertEvent = true
        · have is : UploadError.raised .insertEvent = error := by
            simpa [announceStored, urlFails, url, insertFails] using announced
          simp [announceStoredCall, fileUrl, failingCall, Program.run, urlFails, url, insertFails,
            clear, Except.mapError, is]
        · cases emitted : emitEvent input.now input.eventPk
            (upload.emission "file.stored" (upload.payload address)) conn.database.events with
          | ok events =>
              simp [announceStored, urlFails, url, insertFails, emitted, Except.mapError]
                at announced
          | error other =>
              have is : UploadError.database other = error := by
                simpa [announceStored, urlFails, url, insertFails, emitted, Except.mapError]
                  using announced
              simp [announceStoredCall, fileUrl, failingCall, emitEventCall, Program.run,
                urlFails, url, insertFails, clear, Except.mapError, outboxStore, emitted, is]

end Announce

include clear in
variable (backend input content upload) in
/-- The body of the block raises what the transaction of the model raises, or it has done what
the transaction does unless the commit fails. -/
theorem storeUploadCall_body :
    (∃ error after, (storeUploadCall input content upload).run backend
        { conn with inAtomicBlock := true } = (after, .error (.raised error)) ∧
      storeUpload input content upload ⟨conn.database, conn.outside⟩ =
        (⟨conn.database, after.outside⟩, .error error)) ∨
    ∃ saved after, (storeUploadCall input content upload).run backend
        { conn with inAtomicBlock := true } = (after, .ok saved) ∧
      after.needsRollback = false ∧
      storeUpload input content upload ⟨conn.database, conn.outside⟩ =
        if input.fails .commit then
          (⟨conn.database, after.outside⟩, .error (.raised .commit))
        else (⟨after.database, after.outside⟩, .ok saved) := by
  let entered : UploadConnection := { conn with inAtomicBlock := true }
  have clearEntered : entered.needsRollback = false := clear
  cases created : createWithBlob input content upload ⟨conn.database, conn.outside⟩ with
  | mk left result =>
      cases result with
      | error error =>
          have creates : (createWithBlobCall input content upload).run backend entered = _ :=
            createWithBlobCall_of_error clearEntered created
          refine .inl ⟨error, _, by rw [storeUploadCall, Program.run, creates], ?_⟩
          have same : left.database = conn.database := createWithBlob_error created
          rw [storeUpload, created, ← same]
      | ok saved =>
          let inserted : UploadConnection :=
            { entered with database := left.database, outside := left.storage }
          have clearInserted : inserted.needsRollback = false := clear
          have creates : (createWithBlobCall input content upload).run backend entered =
              (inserted, .ok saved) := createWithBlobCall_of_ok clearEntered created
          cases announced : announceStored input saved left.database.events with
          | error error =>
              obtain ⟨after, raised, outside⟩ :
                  ∃ after, (announceStoredCall input saved).run backend inserted =
                    (after, .error (.raised error)) ∧ after.outside = inserted.outside :=
                announceStoredCall_of_error clearInserted announced
              refine .inl ⟨error, after, ?_, ?_⟩
              · simp only [storeUploadCall, Program.run]
                rw [creates]
                simp only [raised]
              · simp only [storeUpload, created, announced, outside, inserted]
          | ok events =>
              have announces : (announceStoredCall input saved).run backend inserted = _ :=
                announceStoredCall_of_ok clearInserted rfl announced
              let finished : UploadConnection :=
                { inserted with
                  database := { left.database with events }
                  runOnCommit := inserted.runOnCommit ++ [input.eventPk] }
              have clearFinished : finished.needsRollback = false := clear
              refine .inr ⟨saved, finished, ?_, clearFinished, ?_⟩
              · simp only [storeUploadCall, Program.run]
                rw [creates]
                simp only [announces]
                rfl
              · simp only [storeUpload, created, announced, finished, inserted]

include clear in
/-- The block does to the database and the storage what the transaction of the model does. -/
theorem storeUploadCall_run (safe : ∀ hook, backend.raises hook = none) :
    let call := (Program.atomic (commitError input) (storeUploadCall input content upload)).run
      backend conn
    let direct := storeUpload input content upload ⟨conn.database, conn.outside⟩
    call.1.database = direct.1.database ∧ call.1.outside = direct.1.storage ∧
      call.2 = direct.2.mapError .raised := by
  intro call direct
  rcases storeUploadCall_body input content upload backend clear with
    ⟨error, after, body, is⟩ | ⟨saved, after, body, unmarked, is⟩
  · have rolledBack : call = _ := Program.run_atomic_of_error clear body
    simp only [rolledBack, direct, is]
    exact ⟨rfl, rfl, rfl⟩
  · by_cases commits : input.fails .commit = true
    · have fails : commitError input = some (.raised (.raised .commit)) := if_pos commits
      simp only [call, direct, fails, is, commits, if_true,
        Program.run_atomic_of_unsaved clear body unmarked]
      exact ⟨rfl, rfl, rfl⟩
    · have commitsWell : commitError input = none := if_neg commits
      obtain ⟨database, outside, _, returned⟩ :=
        Program.run_atomic_of_saved clear body unmarked safe
      simp only [call, direct, commitsWell, is, commits]
      exact ⟨database, outside, returned⟩

theorem createUploadFileCall_run (safe : ∀ hook, backend.raises hook = none)
    (clear : conn.needsRollback = false) (settings : Settings) (input : UploadInput)
    (user : Option Nat) (file : UploadedFile) (batch : Option Uuid) :
    let call := (createUploadFileCall settings input user file batch).run backend conn
    let direct := createUploadFile settings input user file batch ⟨conn.database, conn.outside⟩
    call.1.database = direct.1.database ∧ call.1.outside = direct.1.storage ∧
      call.2 = direct.2.mapError .raised := by
  intro call direct
  cases valid : validateFile settings file none with
  | error invalid =>
      simp only [call, direct, createUploadFileCall, createUploadFile, valid]
      cases created : createWithBlob input file.content (failedUpload input user file batch invalid)
          ⟨conn.database, conn.outside⟩ with
      | mk left result =>
          cases result with
          | error error =>
              rw [createWithBlobCall_of_error clear created]
              exact ⟨(createWithBlob_error created).symm, rfl, rfl⟩
          | ok saved =>
              rw [createWithBlobCall_of_ok clear created]
              exact ⟨rfl, rfl, rfl⟩
  | ok found =>
      simp only [call, direct, createUploadFileCall, createUploadFile, valid]
      exact storeUploadCall_run clear safe

/-- The event that a direct upload adds. -/
def announcedKeys (input : UploadInput) : Except UploadError UploadFile → List Uuid
  | .ok upload => if upload.status = .stored then [input.eventPk] else []
  | .error _ => []

theorem createUploadFile_events (settings : Settings) (input : UploadInput)
    (user : Option Nat) (file : UploadedFile) (batch : Option Uuid) (state : UploadState) :
    let direct := createUploadFile settings input user file batch state
    direct.1.database.events.keys =
      state.database.events.keys ++ announcedKeys input direct.2 := by
  intro direct
  cases created : direct with
  | mk left result =>
      cases result with
      | error error =>
          rw [createUploadFile_of_error created, announcedKeys, List.append_nil]
      | ok upload =>
          cases valid : validateFile settings file none with
          | error invalid =>
              have made := (createUploadFile_of_invalid valid).symm.trans created
              have failed : upload.status = .failed := by
                rw [(createWithBlob_ok made).1]
                rfl
              simp [createWithBlob_events made, announcedKeys, failed]
          | ok found =>
              have made := (createUploadFile_of_valid valid).symm.trans created
              obtain ⟨middle, events, inserted, announced, _, rfl⟩ := storeUpload_eq_ok made
              have stored : upload.status = .stored := by
                rw [(createWithBlob_ok inserted).1]
                rfl
              have rows := announceStored_rows announced
              rw [(createWithBlob_events inserted).2.2] at rows
              simp [Table.keys, rows, announcedKeys, stored, EmitArguments.event]

variable (conn) in
/-- A call of `create_upload_file` outside of all atomic blocks, whether or not the broker takes
the task. It does what the model without a connection says; for a file that is stored `delay()`
is called once, after the event was committed, and nothing else calls it. -/
theorem uploads_send_their_task {broker : Uuid → Option DelayError}
    (exceptions : ∀ event error, broker event = some error → error.IsException)
    (outermost : conn.inAtomicBlock = false) (sound : conn.Sound) (settings : Settings)
    (input : UploadInput) (user : Option Nat) (file : UploadedFile) (batch : Option Uuid) :
    let call := (createUploadFileCall settings input user file batch).run
      (dispatching UploadError broker) conn
    let direct := createUploadFile settings input user file batch ⟨conn.database, conn.outside⟩
    call.1.database = direct.1.database ∧ call.1.outside = direct.1.storage ∧
      call.2 = direct.2.mapError .raised ∧
      ∃ done, call.1.performed = conn.performed ++ done ∧
        (∀ pair ∈ done, pair.1 ∈ pair.2.events.keys) ∧
        done.map (·.1) = announcedKeys input direct.2 := by
  intro call direct
  have safe : ∀ hook, (dispatching UploadError broker).raises hook = none :=
    safe_of_isException exceptions
  obtain ⟨database, outside, returned⟩ := createUploadFileCall_run safe
    (sound.clean outermost) settings input user file batch
  obtain ⟨_, _, done, performed, keys, committed⟩ :=
    (createUploadFileCall_emitsOnly settings user file batch).dispatches outboxStore safe
      outermost sound
  refine ⟨database, outside, returned, done, performed, committed, ?_⟩
  apply List.append_cancel_left
  calc conn.database.events.keys ++ done.map (·.1)
      = call.1.database.events.keys := keys.symm
    _ = direct.1.database.events.keys := by rw [database]
    _ = conn.database.events.keys ++ announcedKeys input direct.2 :=
        createUploadFile_events settings input user file batch _

end Direct

/-! ## The expiry sweep -/

def announceExpiringCall (input : SweepInput) (ttlHours : Int) (upload : UploadFile) :
    UploadProgram Uuid :=
  .atomic none
    (.bind (.compute ((upload.url input.url).mapError .raised)) fun url =>
      emitEventCall outboxStore .database input.now (input.eventPk upload.pk)
        (upload.emission "file.expiring" (upload.payload url ++
          [("expires_at", .string (timeStr (upload.createdAt + hours ttlHours)))])))

/-- `except IntegrityError`. -/
def skipped (error : CallError UploadError) : UploadProgram Bool :=
  .compute (if error = .raised (.database .integrityError) then .ok false else .error error)

def announceAllCall (input : SweepInput) (ttlHours : Int) :
    List UploadFile → SweepResult → UploadProgram SweepResult
  | [], result => .compute (.ok result)
  | upload :: rest, result =>
      .bind
        (.attempt (.bind (announceExpiringCall input ttlHours upload) fun _ => .compute (.ok true))
          skipped)
        fun notified =>
          announceAllCall input ttlHours rest
            (if notified then { result with notified := result.notified + 1 }
              else { result with skipped := result.skipped + 1 })

def notifyExpiringFilesCall (settings : Settings) (input : SweepInput)
    (ttlHours notifyHours : Option Int) : UploadProgram SweepResult :=
  let ttlHours := ttlHours.getD settings.ttlHours
  let notifyHours := notifyHours.getD settings.notifyHours
  let cutoff := input.now - hours (ttlHours - notifyHours)
  .bind
    (.query fun database storage =>
      (storage, .ok (database,
        input.order.arrange (database.files.rows.filter (·.isExpiring cutoff)))))
    fun expiring => announceAllCall input ttlHours expiring ⟨0, 0⟩

section Sweep

variable {input : SweepInput} {ttlHours : Int}

theorem announceExpiringCall_emitsOnly (upload : UploadFile) :
    EmitsOnly outboxStore (announceExpiringCall input ttlHours upload) :=
  .atomic (.bind (.compute _) fun _ => emitEventCall_emitsOnly _ _ _ _ _)

theorem announceAllCall_emitsOnly (uploads : List UploadFile) (result : SweepResult) :
    EmitsOnly outboxStore (announceAllCall input ttlHours uploads result) := by
  induction uploads generalizing result with
  | nil => exact .compute _
  | cons upload rest ih =>
      refine .bind (.attempt ?_ fun _ => .compute _) fun _ => ih _
      exact .bind (announceExpiringCall_emitsOnly upload) fun _ => .compute _

theorem notifyExpiringFilesCall_emitsOnly (settings : Settings) (input : SweepInput)
    (ttlHours notifyHours : Option Int) :
    EmitsOnly outboxStore (notifyExpiringFilesCall settings input ttlHours notifyHours) := by
  refine .bind (.query ?_) fun _ => announceAllCall_emitsOnly _ _
  intro database storage after expiring returned
  cases returned
  rfl

variable {backend : Backend Uuid (CallError UploadError)}
  (safe : ∀ hook, backend.raises hook = none) {conn : UploadConnection}
  (clear : conn.needsRollback = false)

/-- What a step of the sweep leaves of a connection. -/
structure SweptTo (conn after : UploadConnection) (events : EventTable) : Prop where
  database : after.database = { conn.database with events }
  outside : after.outside = conn.outside
  clear : after.needsRollback = false

theorem SweptTo.trans {first second third : UploadConnection} {events more : EventTable}
    (one : SweptTo first second events) (two : SweptTo second third more) :
    SweptTo first third more :=
  ⟨by rw [two.database, one.database], two.outside.trans one.outside, two.clear⟩

include safe clear in
theorem announceExpiringCall_of_ok {upload : UploadFile} {events : EventTable}
    (announced : announceExpiring input ttlHours upload conn.database.events = .ok events) :
    ∃ after event, (announceExpiringCall input ttlHours upload).run backend conn =
      (after, .ok event) ∧ SweptTo conn after events := by
  obtain ⟨named, emitted⟩ := announceExpiring_emitted announced
  let entered : UploadConnection := { conn with inAtomicBlock := true }
  let finished : UploadConnection :=
    { entered with
      database := { conn.database with events }
      runOnCommit := conn.runOnCommit ++ [input.eventPk upload.pk] }
  have clearFinished : finished.needsRollback = false := clear
  have body : Program.run backend
      (.bind (.compute ((upload.url input.url).mapError .raised)) fun url =>
        emitEventCall outboxStore .database input.now (input.eventPk upload.pk)
          (upload.emission "file.expiring" (upload.payload url ++
            [("expires_at", .string (timeStr (upload.createdAt + hours ttlHours)))])))
      entered = (finished, .ok (input.eventPk upload.pk)) := by
    simp [Program.run, UploadFile.url, named, Except.mapError, emitEventCall, entered, clear,
      outboxStore, emitted, finished]
  obtain ⟨database, outside, unmarked, returned⟩ :=
    Program.run_atomic_of_saved clear body clearFinished safe
  exact ⟨_, _, Prod.ext rfl returned, database, outside, unmarked⟩

include clear in
theorem announceExpiringCall_of_error {upload : UploadFile} {error : UploadError}
    (announced : announceExpiring input ttlHours upload conn.database.events = .error error) :
    ∃ after, (announceExpiringCall input ttlHours upload).run backend conn =
      (after, .error (.raised error)) ∧ SweptTo conn after conn.database.events := by
  suffices body : ∃ after, Program.run backend
      (.bind (.compute ((upload.url input.url).mapError .raised)) fun url =>
        emitEventCall outboxStore .database input.now (input.eventPk upload.pk)
          (upload.emission "file.expiring" (upload.payload url ++
            [("expires_at", .string (timeStr (upload.createdAt + hours ttlHours)))])))
      { conn with inAtomicBlock := true } = (after, .error (.raised error)) ∧
      after.outside = conn.outside by
    obtain ⟨after, ran, outside⟩ := body
    exact ⟨_, Program.run_atomic_of_error clear ran, rfl, outside, clear⟩
  by_cases named : upload.file = ""
  · have raised : UploadError.valueError
        "The 'file' attribute has no file associated with it." = error := by
      simpa [announceExpiring, UploadFile.url, named] using announced
    refine ⟨{ conn with inAtomicBlock := true }, ?_, rfl⟩
    simp [Program.run, UploadFile.url, named, Except.mapError, raised]
  · rw [announceExpiring_of_named input ttlHours named] at announced
    cases emitted : emitEvent input.now (input.eventPk upload.pk) (upload.emission "file.expiring"
        (upload.payload (input.url upload.file) ++
          [("expires_at", .string (timeStr (upload.createdAt + hours ttlHours)))]))
        conn.database.events with
    | ok events =>
        rw [emitted] at announced
        cases announced
    | error refused =>
        rw [emitted] at announced
        cases announced
        refine ⟨{ conn with inAtomicBlock := true, needsRollback := true }, ?_, rfl⟩
        simp [Program.run, UploadFile.url, named, Except.mapError, emitEventCall, clear,
          outboxStore, emitted]

include safe in
variable (input ttlHours) in
theorem announceAllCall_run (uploads : List UploadFile) (result : SweepResult)
    (conn : UploadConnection) (clear : conn.needsRollback = false) :
    ∃ after, (announceAllCall input ttlHours uploads result).run backend conn =
        (after, (announceAll input ttlHours uploads result conn.database.events).2.mapError
          .raised) ∧
      SweptTo conn after (announceAll input ttlHours uploads result conn.database.events).1 := by
  induction uploads generalizing result conn with
  | nil => exact ⟨conn, rfl, rfl, rfl, clear⟩
  | cons upload rest ih =>
      cases announced : announceExpiring input ttlHours upload conn.database.events with
      | ok grown =>
          obtain ⟨after, event, ran, swept⟩ :=
            announceExpiringCall_of_ok safe clear announced
          have grownEvents : after.database.events = grown := by rw [swept.database]
          obtain ⟨final, ranRest, sweptRest⟩ :=
            ih { result with notified := result.notified + 1 } after swept.clear
          rw [grownEvents] at ranRest sweptRest
          refine ⟨final, ?_, ?_⟩
          · simp only [announceAllCall, Program.run, ran, if_true, announceAll, announced]
            exact ranRest
          · simp only [announceAll, announced]
            exact swept.trans sweptRest
      | error error =>
          obtain ⟨after, ran, swept⟩ :
              ∃ after, (announceExpiringCall input ttlHours upload).run backend conn =
                (after, .error (.raised error)) ∧ SweptTo conn after conn.database.events :=
            announceExpiringCall_of_error clear announced
          have sameEvents : after.database.events = conn.database.events := by rw [swept.database]
          by_cases duplicate : error = .database .integrityError
          · obtain ⟨final, ranRest, sweptRest⟩ :=
              ih { result with skipped := result.skipped + 1 } after swept.clear
            rw [sameEvents] at ranRest sweptRest
            subst duplicate
            refine ⟨final, ?_, ?_⟩
            · simp only [announceAllCall, Program.run, ran, skipped, if_true, announceAll,
                announced]
              exact ranRest
            · simp only [announceAll, announced]
              exact swept.trans sweptRest
          · have left : announceAll input ttlHours (upload :: rest) result conn.database.events =
                (conn.database.events, .error error) := by
              rw [announceAll, announced]
              split
              · cases ‹_›
              · rename_i same
                exact absurd (Except.error.inj same) duplicate
              · rename_i same
                rw [Except.error.inj same]
            rw [left]
            refine ⟨after, ?_, swept⟩
            simp [announceAllCall, Program.run, ran, skipped, duplicate, Except.mapError]

/-- A sweep that returns has counted the events that it has added. -/
theorem announceAll_notified {uploads : List UploadFile} {result total : SweepResult}
    {events : EventTable}
    (returned : (announceAll input ttlHours uploads result events).2 = .ok total) :
    events.rows.length + total.notified =
      (announceAll input ttlHours uploads result events).1.rows.length + result.notified := by
  induction uploads generalizing result events with
  | nil =>
      cases returned
      rfl
  | cons upload rest ih =>
      cases announced : announceExpiring input ttlHours upload events with
      | ok grown =>
          simp only [announceAll, announced] at returned ⊢
          have later := ih returned
          have rows := emitEvent_rows (announceExpiring_emitted announced).2
          rw [rows, List.length_append, List.length_singleton] at later
          dsimp only at later
          omega
      | error error =>
          simp only [announceAll, announced] at returned ⊢
          split at returned
          · rename_i same
            cases same
          · exact ih returned
          · cases returned

include safe clear in
theorem notifyExpiringFilesCall_run (settings : Settings) (input : SweepInput)
    (ttlHours notifyHours : Option Int) :
    let call := (notifyExpiringFilesCall settings input ttlHours notifyHours).run backend conn
    let direct := notifyExpiringFiles settings input ttlHours notifyHours conn.database
    call.1.database = direct.1 ∧ call.1.outside = conn.outside ∧
      call.2 = direct.2.mapError .raised := by
  intro call direct
  obtain ⟨after, ran, swept⟩ := announceAllCall_run input (ttlHours.getD settings.ttlHours) safe
    (input.order.arrange (conn.database.files.rows.filter (·.isExpiring
      (input.now - hours (ttlHours.getD settings.ttlHours -
        notifyHours.getD settings.notifyHours))))) ⟨0, 0⟩ conn clear
  have is : call = (after, direct.2.mapError .raised) := by
    simp only [call, notifyExpiringFilesCall]
    rw [Program.run, Program.run_read clear]
    exact ran
  rw [is]
  exact ⟨swept.database, swept.outside, rfl⟩

variable (conn) in
/-- A run of `notify_expiring_files` outside of all atomic blocks, whether or not the broker takes
the tasks. It does what the model without a connection says, also when it is left by an
exception; it has called `delay()` once for each event that it has added, after the event was
committed, and as often as it reports when it returns. -/
theorem sweeps_send_a_task_per_notice {broker : Uuid → Option DelayError}
    (exceptions : ∀ event error, broker event = some error → error.IsException)
    (outermost : conn.inAtomicBlock = false) (sound : conn.Sound) (settings : Settings)
    (input : SweepInput) (ttlHours notifyHours : Option Int) :
    let call := (notifyExpiringFilesCall settings input ttlHours notifyHours).run
      (dispatching UploadError broker) conn
    let direct := notifyExpiringFiles settings input ttlHours notifyHours conn.database
    call.1.database = direct.1 ∧ call.1.outside = conn.outside ∧
      call.2 = direct.2.mapError .raised ∧
      ∃ done, call.1.performed = conn.performed ++ done ∧
        (∀ pair ∈ done, pair.1 ∈ pair.2.events.keys) ∧
        direct.1.events.keys = conn.database.events.keys ++ done.map (·.1) ∧
        ∀ result, direct.2 = .ok result → done.length = result.notified := by
  intro call direct
  have safe : ∀ hook, (dispatching UploadError broker).raises hook = none :=
    safe_of_isException exceptions
  obtain ⟨database, outside, returned⟩ := notifyExpiringFilesCall_run safe
    (sound.clean outermost) settings input ttlHours notifyHours
  obtain ⟨_, _, done, performed, keys, committed⟩ :=
    (notifyExpiringFilesCall_emitsOnly settings input ttlHours notifyHours).dispatches outboxStore
      safe outermost sound
  have added : direct.1.events.keys = conn.database.events.keys ++ done.map (·.1) :=
    calc direct.1.events.keys
        = call.1.database.events.keys := by rw [database]
      _ = conn.database.events.keys ++ done.map (·.1) := keys
  refine ⟨database, outside, returned, done, performed, committed, added, ?_⟩
  intro result total
  have counted : conn.database.events.rows.length + result.notified =
      direct.1.events.rows.length + 0 := announceAll_notified total
  have length := congrArg List.length added
  simp only [Table.keys, List.length_append, List.length_map] at length
  omega

end Sweep

/-! ## A broker that refuses every task -/

namespace Sample

def connection (state : UploadState) : UploadConnection :=
  ⟨state.database, state.storage, false, false, [], []⟩

theorem connection_sound (state : UploadState) : (connection state).Sound :=
  ⟨fun _ => rfl, fun _ => rfl⟩

def firstSweep : SweepInput := ⟨hours 24, .stored, fun _ => uuid 0, id⟩

end Sample

theorem uploads_send_their_task_halfRead :
    let call := (createUploadFileCall Sample.settings Sample.allGoesThrough none Sample.halfRead
      none).run (dispatching UploadError Sample.brokenBroker) (Sample.connection .empty)
    ∃ done upload, call.2 = .ok upload ∧ call.1.performed = [] ++ done ∧
      done.map (·.1) = announcedKeys Sample.allGoesThrough (.ok upload) := by
  obtain ⟨left, upload, created⟩ := Sample.halfRead_created
  obtain ⟨_, _, returned, done, performed, _, keys⟩ := uploads_send_their_task
    (Sample.connection .empty) Sample.brokenBroker_exceptions rfl
    (Sample.connection_sound .empty) Sample.settings Sample.allGoesThrough none Sample.halfRead none
  have same : createUploadFile Sample.settings Sample.allGoesThrough none Sample.halfRead none
      ⟨(Sample.connection .empty).database, (Sample.connection .empty).outside⟩ =
      (left, .ok upload) := created
  rw [same] at returned keys
  exact ⟨done, upload, returned, performed, keys⟩

theorem sweeps_send_a_task_per_notice_oneStored :
    let call := (notifyExpiringFilesCall Sample.settings Sample.firstSweep none none).run
      (dispatching UploadError Sample.brokenBroker) (Sample.connection Sample.oneStored)
    ∃ done, call.1.performed = [] ++ done ∧ done.length = 1 := by
  intro call
  obtain ⟨_, _, _, done, performed, _, _, counted⟩ := sweeps_send_a_task_per_notice
    (Sample.connection Sample.oneStored) Sample.brokenBroker_exceptions rfl
    (Sample.connection_sound _) Sample.settings Sample.firstSweep none none
  exact ⟨done, performed, counted ⟨1, 0⟩ rfl⟩

end Doorito.Portal
