import Doorito.Common.UpdateProperties
import Doorito.Foundation.Transaction

/-! How `emit_event` sends the delivery task (`common/services/outbox.py`, `common/utils.py`).
The task is a hook that waits for the commit and never raises into its caller. A task counts as
sent when `delay()` is called for it, also when the broker refuses it. -/

set_option autoImplicit false

namespace Doorito.Common

open Foundation

/-- What `deliver_outbox_events_task.delay()` raises: an `Exception`, or an exception that is
none, such as `SystemExit`. -/
inductive DelayError where
  | exception (message : String)
  | baseException (name : String)
deriving DecidableEq, Repr

def DelayError.IsException : DelayError → Prop
  | .exception _ => True
  | .baseException _ => False

/-- `safe_dispatch` logs an `Exception` and lets everything else through. -/
def safeDispatch : Option DelayError → Option String
  | none => none
  | some (.exception _) => none
  | some (.baseException name) => some name

/-- What a call within a transaction ends with: an error of its own, the one of a query in a
block that must be rolled back, or what a hook lets through. -/
inductive CallError (Error : Type) where
  | raised (error : Error)
  | transactionManagement
  | baseException (name : String)
deriving DecidableEq, Repr

/-- The hook of an event calls `delay()`; the broker may raise for it. -/
def dispatching (Error : Type) (broker : Uuid → Option DelayError) :
    Backend Uuid (CallError Error) where
  refused := .transactionManagement
  raises event := (safeDispatch (broker event)).map .baseException

/-- A database with the outbox among its tables. -/
structure EventStore (Db : Type) where
  events : Db → EventTable
  put : Db → EventTable → Db
  events_put : ∀ database table, events (put database table) = table

section Emission

variable {Db Outside Error Result : Type} (store : EventStore Db)

/-- `emit_event` on a connection: it inserts the row and enters the hook. -/
def emitEventCall (database : DbError → Error) (now : Time) (pk : Uuid)
    (arguments : EmitArguments) : Program Db Outside Uuid (CallError Error) Uuid :=
  .bind
    (.query fun db outside =>
      (outside,
        match emitEvent now pk arguments (store.events db) with
        | .ok events => .ok (store.put db events, pk)
        | .error error => .error (.raised (database error))))
    fun event => .bind (.onCommit event) fun _ => .compute (.ok event)

def EventStore.emitted (db : Db) : List Uuid := (store.events db).keys

/-- The rest of a program leaves the outbox alone: events come from `emit_event`. -/
def EmitsOnly (program : Program Db Outside Uuid (CallError Error) Result) : Prop :=
  Paired store.emitted program

theorem emitEventCall_emitsOnly (database : DbError → Error) (now : Time) (pk : Uuid)
    (arguments : EmitArguments) :
    EmitsOnly store
      (emitEventCall store database now pk arguments :
        Program Db Outside Uuid (CallError Error) Uuid) := by
  refine .record id ?_
  intro db outside after event returned
  dsimp only at returned
  split at returned
  · rename_i events emitted
    cases returned
    have rows := emitEvent_rows emitted
    simp [EventStore.emitted, store.events_put, Table.keys, rows, EmitArguments.event]
  · cases returned

theorem safe_of_isException {broker : Uuid → Option DelayError}
    (exceptions : ∀ event error, broker event = some error → error.IsException) (event : Uuid) :
    (dispatching Error broker).raises event = none := by
  cases raised : broker event with
  | none => simp [dispatching, safeDispatch, raised]
  | some error =>
      cases error with
      | exception message => simp [dispatching, safeDispatch, raised]
      | baseException name => exact (exceptions event _ raised).elim

/-- When a program has ended outside of all blocks, it has called `delay()` for the events that
it has added, in their order. -/
theorem EmitsOnly.dispatches {backend : Backend Uuid (CallError Error)}
    (safe : ∀ hook, backend.raises hook = none)
    {program : Program Db Outside Uuid (CallError Error) Result} (emits : EmitsOnly store program)
    {conn : Connection Db Outside Uuid} (outermost : conn.inAtomicBlock = false)
    (sound : conn.Sound) :
    (program.run backend conn).1.inAtomicBlock = false ∧ (program.run backend conn).1.Sound ∧
      ∃ done, (program.run backend conn).1.performed = conn.performed ++ done ∧
        (store.events (program.run backend conn).1.database).keys =
          (store.events conn.database).keys ++ done.map (·.1) ∧
        ∀ pair ∈ done, pair.1 ∈ (store.events pair.2).keys := by
  obtain ⟨entries, soundAfter, accounts⟩ := emits.accounts safe sound
  obtain ⟨done, performed, hooks, logged⟩ := accounts.performs outermost
  exact ⟨accounts.block.trans outermost, soundAfter, done, performed, hooks ▸ accounts.logs,
    logged⟩

/-- Whatever a program does around `emit_event`, in whatever nesting of atomic blocks and
handlers: when it has ended, `delay()` was called once for each event that it has added to the
outbox and for no other, in the same order and each after its event was committed, whether or
not the broker took the task. A block that raises has added no event and called for no task. -/
theorem dispatches_follow_commits {broker : Uuid → Option DelayError}
    (exceptions : ∀ event error, broker event = some error → error.IsException)
    {program : Program Db Outside Uuid (CallError Error) Result}
    (emits : EmitsOnly store program) (conn : Connection Db Outside Uuid)
    (outermost : conn.inAtomicBlock = false) (sound : conn.Sound) :
    let run := program.run (dispatching Error broker) conn
    run.1.inAtomicBlock = false ∧ run.1.runOnCommit = [] ∧
      (∃ done, run.1.performed = conn.performed ++ done ∧
        (store.events run.1.database).keys =
          (store.events conn.database).keys ++ done.map (·.1) ∧
        ∀ pair ∈ done, pair.1 ∈ (store.events pair.2).keys) ∧
      ∀ ends body error, program = .atomic ends body → EmitsOnly store body →
        run.2 = .error error →
        run.1.database = conn.database ∧ run.1.performed = conn.performed := by
  intro run
  have safe : ∀ hook, (dispatching Error broker).raises hook = none :=
    safe_of_isException exceptions
  obtain ⟨ended, soundAfter, sent⟩ := emits.dispatches store safe outermost sound
  refine ⟨ended, soundAfter.ran ended, sent, ?_⟩
  intro ends body error is emitsBody raised
  subst is
  exact Program.run_atomic_of_raised safe outermost emitsBody raised

end Emission

/-! ## An emission that is repeated within one block -/

namespace Sample

def eventStore : EventStore EventTable := ⟨id, fun _ table => table, fun _ _ => rfl⟩

def emission (now : Time) (pk : Uuid) : Program EventTable Unit Uuid (CallError DbError) Uuid :=
  emitEventCall eventStore id now pk arguments

/-- The second emission raises in a savepoint, and the handler goes on. -/
def repeated : Program EventTable Unit Uuid (CallError DbError) Uuid :=
  .atomic none (.bind (emission 0 key) fun event =>
    .attempt (.atomic none (emission 0 expiringEvent.pk)) fun _ => .compute (.ok event))

def connected : Connection EventTable Unit Uuid := ⟨.empty, (), false, false, [], []⟩

def brokenBroker (_ : Uuid) : Option DelayError := some (.exception "connection refused")

theorem brokenBroker_exceptions : ∀ event error, brokenBroker event = some error →
    error.IsException := by
  intro event error raised
  cases raised
  trivial

end Sample

theorem dispatches_follow_commits_repeated :
    ∃ done, (Sample.repeated.run (dispatching DbError Sample.brokenBroker)
        Sample.connected).1.performed = done ∧
      (Sample.repeated.run (dispatching DbError Sample.brokenBroker)
        Sample.connected).1.database.keys = done.map (·.1) := by
  have emits : EmitsOnly Sample.eventStore Sample.repeated := by
    refine .atomic (.bind (emitEventCall_emitsOnly _ _ _ _ _) fun event => .attempt ?_ ?_)
    · exact .atomic (emitEventCall_emitsOnly _ _ _ _ _)
    · exact fun _ => .compute _
  obtain ⟨_, _, ⟨done, performed, events, _⟩, _⟩ :=
    dispatches_follow_commits Sample.eventStore Sample.brokenBroker_exceptions emits
      Sample.connected rfl ⟨fun _ => rfl, fun _ => rfl⟩
  exact ⟨done, performed, events⟩

end Doorito.Common
