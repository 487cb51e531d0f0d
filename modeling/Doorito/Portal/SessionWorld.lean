import Doorito.Portal.SessionProperties
import Doorito.Foundation.Machine

/-! Chunked uploads as a machine. Each of the two statements of `record_upload_part` is
a step and so is the transaction of `complete_upload_session`; a list of actions is one
interleaving of any number of calls on any number of sessions. A call that never takes
its second step is one that died. -/

set_option autoImplicit false

namespace Doorito.Portal

open Foundation Common

/-- A call of `record_upload_part` that stands between its two statements. -/
structure OpenCall where
  session : Uuid
  sizeBytes : Nat
deriving DecidableEq

/-- Calls are numbered in the order of their first statements; a call that has returned
or raised is `none`. -/
structure SessionWorld where
  database : Database
  calls : List (Option OpenCall)

inductive SessionAction where
  | insertPart (now : Time) (session : Uuid) (arguments : PartArguments)
  | countPart (call : Nat)
  | complete (now : Time) (session : Uuid)

namespace SessionWorld

def init (database : Database) : SessionWorld := ⟨database, []⟩

def endCall (world : SessionWorld) (call : Nat) (database : Database) : SessionWorld :=
  ⟨database, world.calls.set call none⟩

end SessionWorld

def chunkedUploads : Machine SessionWorld SessionAction where
  step world
    | .insertPart now session arguments =>
        match insertPart now session arguments world.database with
        | .ok inserted =>
            some ⟨inserted, world.calls ++ [some ⟨session, arguments.sizeBytes⟩]⟩
        | .error _ => some { world with calls := world.calls ++ [none] }
    | .countPart call =>
        match world.calls[call]? with
        | some (some record) =>
            match countPart record.session record.sizeBytes world.database with
            | .ok counted => some (world.endCall call counted)
            | .error _ => some (world.endCall call world.database)
        | _ => none
    | .complete now session =>
        match completeUploadSession now session world.database with
        | .ok completed => some { world with database := completed }
        | .error _ => some world

inductive SessionStep (world : SessionWorld) : SessionAction → SessionWorld → Prop where
  | inserted {now : Time} {session : Uuid} {arguments : PartArguments} {grown : Database} :
      insertPart now session arguments world.database = .ok grown →
      SessionStep world (.insertPart now session arguments)
        ⟨grown, world.calls ++ [some ⟨session, arguments.sizeBytes⟩]⟩
  | rejected {now : Time} {session : Uuid} {arguments : PartArguments} {error : SessionError} :
      insertPart now session arguments world.database = .error error →
      SessionStep world (.insertPart now session arguments)
        { world with calls := world.calls ++ [none] }
  | counted {call : Nat} {record : OpenCall} {counted : Database} :
      world.calls[call]? = some (some record) →
      countPart record.session record.sizeBytes world.database = .ok counted →
      SessionStep world (.countPart call) (world.endCall call counted)
  | uncounted {call : Nat} {record : OpenCall} {error : SessionError} :
      world.calls[call]? = some (some record) →
      countPart record.session record.sizeBytes world.database = .error error →
      SessionStep world (.countPart call) (world.endCall call world.database)
  | completed {now : Time} {session : Uuid} {completed : Database} :
      completeUploadSession now session world.database = .ok completed →
      SessionStep world (.complete now session) { world with database := completed }
  | incomplete {now : Time} {session : Uuid} {error : SessionError} :
      completeUploadSession now session world.database = .error error →
      SessionStep world (.complete now session) world

theorem SessionStep.of_step {world next : SessionWorld} {action : SessionAction}
    (stepped : chunkedUploads.step world action = some next) :
    SessionStep world action next := by
  cases action with
  | insertPart now session arguments =>
      simp only [chunkedUploads] at stepped
      split at stepped <;> cases stepped
      next inserted => exact .inserted inserted
      next rejected => exact .rejected rejected
  | countPart call =>
      simp only [chunkedUploads] at stepped
      split at stepped
      · next found =>
        split at stepped <;> cases stepped
        next counted => exact .counted found counted
        next refused => exact .uncounted found refused
      · cases stepped
  | complete now session =>
      simp only [chunkedUploads] at stepped
      split at stepped <;> cases stepped
      next completed => exact .completed completed
      next refused => exact .incomplete refused

/-! ## Sample values -/

namespace Sample

def session : UploadSession :=
  { pk := uuid 1
    file := file.pk
    status := .init
    chunkSizeBytes := 500
    totalSizeBytes := 500
    totalParts := 1
    bytesReceived := 0
    completedParts := 0
    createdAt := 0
    updatedAt := 0 }

def uploadStarted : Database :=
  { fileStarted with
    sessions := ⟨[session], by decide⟩
    sessionFile := by decide
    partSession := by decide }

def part (partNumber : Nat) : PartArguments := ⟨partNumber, 0, 500, ""⟩

def recordPart (call partNumber : Nat) : List SessionAction :=
  [.insertPart 0 session.pk (part partNumber), .countPart call]

def after (actions : List SessionAction) : SessionWorld :=
  (chunkedUploads.run (.init uploadStarted) actions).getD (.init uploadStarted)

end Sample

end Doorito.Portal
