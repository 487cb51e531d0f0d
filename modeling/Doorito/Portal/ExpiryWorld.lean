import Doorito.Common.OutboxWorld
import Doorito.Portal.StoredFiles
import Doorito.Portal.Tasks

/-! The expiry of files under concurrency. Any number of expiry sweeps, file cleanups,
delivery runs and event cleanups are in progress, each standing between two of its steps,
while files are uploaded. A sweep emits each of its events in a transaction of its own; a
file cleanup deletes blob after blob and then all rows at once. -/

set_option autoImplicit false

namespace Doorito.Portal

open Foundation Common

/-- What a sweep began with: its cutoff, its time to live, and the files it found. -/
structure Sweep where
  cutoff : Time
  ttlHours : Int
  found : FileTable

/-- The loop of a sweep has files left, or it is over; or the sweep was left by an exception
or died before the files that were left. -/
inductive SweepPhase where
  | announcing (sweep : Sweep) (rest : List UploadFile)
  | returned (sweep : Sweep)
  | ended (sweep : Sweep) (rest : List UploadFile)

namespace SweepPhase

def sweep : SweepPhase → Sweep
  | announcing sweep _ | returned sweep | ended sweep _ => sweep

def rest : SweepPhase → List UploadFile
  | announcing _ rest | ended _ rest => rest
  | returned _ => []

end SweepPhase

/-- Where the loop of a sweep stands with these files left. -/
def Sweep.goOn (sweep : Sweep) (rest : List UploadFile) : SweepPhase :=
  if rest.isEmpty then .returned sweep else .announcing sweep rest

@[simp] theorem SweepPhase.sweep_goOn (sweep : Sweep) (rest : List UploadFile) :
    (sweep.goOn rest).sweep = sweep := by
  cases rest <;> rfl

@[simp] theorem SweepPhase.rest_goOn (sweep : Sweep) (rest : List UploadFile) :
    (sweep.goOn rest).rest = rest := by
  cases rest <;> rfl

/-- The query of a sweep. -/
def beginSweep (settings : Settings) (now : Time) (order : RowOrder UploadFile)
    (files : FileTable) : SweepPhase :=
  let cutoff := now - hours (settings.ttlHours - settings.notifyHours)
  Sweep.goOn ⟨cutoff, settings.ttlHours, files⟩
    (order.arrange (files.rows.filter (·.isExpiring cutoff)))

inductive FileCleanupPhase where
  | counted (cutoff : Time) (totalExpired : Nat)
  | selected (totalExpired : Nat) (batchPks : List Uuid)
  | deleting (totalExpired : Nat) (batchPks : List Uuid) (rest : List UploadFile)
  | ended

/-- Database and storage, the keys ever given to events and to files, all runs, the requests
that deliveries made, and the files whose expiry was announced. -/
structure ExpiryWorld where
  state : UploadState
  issued : List Uuid
  issuedFiles : List Uuid
  runs : List RunPhase
  cleanups : List CleanupPhase
  posts : List (Nat × Post)
  sweeps : List SweepPhase
  fileCleanups : List FileCleanupPhase
  announced : List Uuid

/-- One step of one of the tasks, or a call of another service of the portal. -/
inductive ExpiryAction where
  | portal (action : PortalAction)
  | outbox (action : Action)
  | beginSweep (now : Time) (order : RowOrder UploadFile)
  | announce (sweep : Nat) (input : SweepInput)
  | endSweep (sweep : Nat)
  | countExpired (now : Time)
  | selectExpired (cleanup : Nat)
  | readExpired (cleanup : Nat) (order : RowOrder UploadFile)
  | deleteBlob (cleanup : Nat) (raises : Uuid → Bool)
  | deleteFiles (cleanup : Nat)
  | endCleanup (cleanup : Nat)

/-! ## Other services -/

/-- The key of the file that the call creates. -/
def PortalAction.fileKey? : PortalAction → Option Uuid
  | .createUploadFile _ input _ _ _ => some input.pk
  | .startUpload upload => some upload.pk
  | _ => none

/-- The key of the event that the call emits. -/
def PortalAction.eventKey? : PortalAction → Option Uuid
  | .createUploadFile _ input _ _ _ => some input.eventPk
  | _ => none

def PortalAction.isSweep : PortalAction → Bool
  | .notifyExpiringFiles _ _ _ _ => true
  | _ => false

/-- The steps of the outbox that are taken here: events are emitted by the portal, and all
cleanups have the retention time of the settings. -/
def admits (retentionHours : Int) : Action → Bool
  | .emitEvent _ _ _ => false
  | .cleanupCount _ hours => hours = retentionHours
  | _ => true

namespace ExpiryWorld

def init (state : UploadState) : ExpiryWorld where
  state
  issued := state.database.events.keys
  issuedFiles := state.database.files.keys
  runs := []
  cleanups := []
  posts := []
  sweeps := []
  fileCleanups := []
  announced := []

def events (world : ExpiryWorld) : EventTable := world.state.database.events

def files (world : ExpiryWorld) : FileTable := world.state.database.files

def outbox (world : ExpiryWorld) : World :=
  ⟨world.events, world.issued, world.runs, world.cleanups, world.posts⟩

def withEvents (world : ExpiryWorld) (events : EventTable) : ExpiryWorld :=
  { world with state := { world.state with database := { world.state.database with events } } }

def withOutbox (world : ExpiryWorld) (outbox : World) : ExpiryWorld :=
  { world.withEvents outbox.events with
    issued := outbox.issued
    runs := outbox.runs
    cleanups := outbox.cleanups
    posts := outbox.posts }

/-- A call of another service, which gives new keys to what it creates. -/
def call (world : ExpiryWorld) (action : PortalAction) : Option ExpiryWorld :=
  if action.isSweep ∨ (∃ key ∈ action.fileKey?, key ∈ world.issuedFiles) ∨
      ∃ key ∈ action.eventKey?, key ∈ world.issued then none
  else
    (portal.step world.state action).map fun state =>
      { world with
        state
        issued := action.eventKey?.toList ++ world.issued
        issuedFiles := action.fileKey?.toList ++ world.issuedFiles }

/-! ## Sweeps -/

def setSweep (world : ExpiryWorld) (number : Nat) (phase : SweepPhase) : ExpiryWorld :=
  { world with sweeps := world.sweeps.set number phase }

/-- The loop body of a sweep for one file. -/
def announceNext (world : ExpiryWorld) (number : Nat) (input : SweepInput) (sweep : Sweep)
    (upload : UploadFile) (rest : List UploadFile) : ExpiryWorld :=
  match announceExpiring input sweep.ttlHours upload world.events with
  | .ok events =>
      { (world.withEvents events).setSweep number (sweep.goOn rest) with
        issued := input.eventPk upload.pk :: world.issued
        announced := upload.pk :: world.announced }
  | .error (.database .integrityError) => world.setSweep number (sweep.goOn rest)
  | .error _ => world.setSweep number (.ended sweep (upload :: rest))

/-! ## File cleanups -/

def setFileCleanup (world : ExpiryWorld) (number : Nat) (phase : FileCleanupPhase) :
    ExpiryWorld :=
  { world with fileCleanups := world.fileCleanups.set number phase }

/-- A cleanup that counts nothing returns at once. -/
def startFileCleanup (world : ExpiryWorld) (cutoff : Time) : ExpiryWorld :=
  let totalExpired := world.files.count (·.isExpired cutoff)
  { world with
    fileCleanups := world.fileCleanups ++
      [if totalExpired = 0 then .ended else .counted cutoff totalExpired] }

/-- An exception about a blob ends the run. -/
def deleteNextBlob (world : ExpiryWorld) (number : Nat) (raises : Uuid → Bool)
    (totalExpired : Nat) (batchPks : List Uuid) (upload : UploadFile)
    (rest : List UploadFile) : ExpiryWorld :=
  match deleteBlob raises upload world.state.storage with
  | none => world.setFileCleanup number .ended
  | some storage =>
      { world.setFileCleanup number (.deleting totalExpired batchPks rest) with
        state := { world.state with storage } }

/-! ## Steps -/

def step (settings : Settings) (retentionHours : Int) (world : ExpiryWorld) :
    ExpiryAction → Option ExpiryWorld
  | .portal action => world.call action
  | .outbox action =>
      if admits retentionHours action then
        (Common.outbox.step world.outbox action).map world.withOutbox
      else none
  | .beginSweep now order =>
      some { world with sweeps := world.sweeps ++ [beginSweep settings now order world.files] }
  | .announce number input =>
      match world.sweeps[number]? with
      | some (.announcing sweep (upload :: rest)) =>
          if input.eventPk upload.pk ∈ world.issued then none
          else some (world.announceNext number input sweep upload rest)
      | _ => none
  | .endSweep number =>
      match world.sweeps[number]? with
      | some (.announcing sweep rest) => some (world.setSweep number (.ended sweep rest))
      | _ => none
  | .countExpired now =>
      some (world.startFileCleanup (now - hours settings.ttlHours))
  | .selectExpired number =>
      match world.fileCleanups[number]? with
      | some (.counted cutoff totalExpired) =>
          some (world.setFileCleanup number
            (.selected totalExpired (selectExpired cutoff world.files)))
      | _ => none
  | .readExpired number order =>
      match world.fileCleanups[number]? with
      | some (.selected totalExpired batchPks) =>
          some (world.setFileCleanup number (.deleting totalExpired batchPks
            (order.arrange (world.files.rows.filter (·.pk ∈ batchPks)))))
      | _ => none
  | .deleteBlob number raises =>
      match world.fileCleanups[number]? with
      | some (.deleting totalExpired batchPks (upload :: rest)) =>
          some (world.deleteNextBlob number raises totalExpired batchPks upload rest)
      | _ => none
  | .deleteFiles number =>
      match world.fileCleanups[number]? with
      | some (.deleting _ batchPks []) =>
          some { world.setFileCleanup number .ended with
            state := { world.state with database := world.state.database.deleteFiles batchPks } }
      | _ => none
  | .endCleanup number =>
      match world.fileCleanups[number]? with
      | none | some .ended => none
      | some _ => some (world.setFileCleanup number .ended)

end ExpiryWorld

/-- The portal and its tasks under their settings. -/
def expiry (settings : Settings) (retentionHours : Int) : Machine ExpiryWorld ExpiryAction :=
  ⟨ExpiryWorld.step settings retentionHours⟩

/-! ## Clock -/

def PortalAction.reading : PortalAction → Time
  | .createUploadFile _ input _ _ _ => input.now
  | .startUpload upload => upload.createdAt
  | .createUploadSession now _ _ _ _ => now
  | .recordUploadPart now _ _ => now
  | .completeUploadSession now _ => now
  | .markFileFailed now _ _ => now
  | .notifyExpiringFiles _ input _ _ => input.now

/-- The clock reading of an outbox step that takes one. -/
def readingOf? : Action → Option Time
  | .emitEvent now _ _ => some now
  | .beginFetch now _ _ _ => some now
  | .update _ now _ _ => some now
  | .retryFailedEvents now _ => some now
  | .cleanupCount now _ => some now
  | .commitFetch _ | .deliver _ _ _ | .die _ | .cleanupSelect _ | .cleanupDelete _
  | .cleanupDie _ => none

def ExpiryAction.reading? : ExpiryAction → Option Time
  | .portal action => some action.reading
  | .outbox action => readingOf? action
  | .beginSweep now _ => some now
  | .announce _ input => some input.now
  | .countExpired now => some now
  | .endSweep _ | .selectExpired _ | .readExpired _ _ | .deleteBlob _ _ | .deleteFiles _
  | .endCleanup _ => none

/-- The actions take place at non-decreasing times. -/
def InOrder (actions : List ExpiryAction) : Prop :=
  (actions.filterMap ExpiryAction.reading?).Pairwise (· ≤ ·)

instance (actions : List ExpiryAction) : Decidable (InOrder actions) :=
  inferInstanceAs (Decidable (List.Pairwise _ _))

/-! ## Notices -/

/-- The event announces the expiry of the file. -/
def IsNoticeOf (file : Uuid) (event : OutboxEvent) : Prop :=
  event.eventType = "file.expiring" ∧ event.idempotencyKey = "UploadFile:" ++ file.str

end Doorito.Portal
