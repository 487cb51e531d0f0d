import Doorito.Common.Webhook
import Doorito.Foundation.Rounding

/-! Outbox event emission, delivery and cleanup (`common/services/outbox.py`),
and the admin action that retries failed events (`common/admin.py`).

A delivery run is given as its three phases, so that other operations can take
place between them, and as the whole function. Every operation reads the clock
once in each phase; `auto_now` columns take that reading. -/

set_option autoImplicit false

namespace Doorito.Common

open Foundation

def deliveryBatchSize : Nat := 20

def cleanupBatchSize : Nat := 1000

/-! ## Emission -/

structure EmitArguments where
  aggregateType : String
  aggregateId : String
  eventType : String
  payload : Option Json
  idempotencyKey : Option String

/-- `idempotency_key or f"{aggregate_type}:{aggregate_id}"`. -/
def EmitArguments.effectiveKey (arguments : EmitArguments) : String :=
  match arguments.idempotencyKey with
  | none | some "" => arguments.aggregateType ++ ":" ++ arguments.aggregateId
  | some key => key

/-- The row that `emit_event` creates. -/
def EmitArguments.event (arguments : EmitArguments) (now : Time) (pk : Uuid) :
    OutboxEvent :=
  { pk
    aggregateType := arguments.aggregateType
    aggregateId := arguments.aggregateId
    eventType := arguments.eventType
    payload := arguments.payload.getD (.object [])
    status := .pending
    idempotencyKey := arguments.effectiveKey
    attempts := 0
    maxAttempts := 5
    nextAttemptAt := some now
    deliveredAt := none
    errorMessage := ""
    createdAt := now
    updatedAt := now }

def OutboxEvent.fitsColumns (event : OutboxEvent) : Bool :=
  event.aggregateType.length ≤ 100 && event.aggregateId.length ≤ 100 &&
    event.eventType.length ≤ 100 && event.idempotencyKey.length ≤ 255

/-- The constraint `unique_event_type_idempotency_key` admits the event. -/
def OutboxEvent.isUniqueIn (event : OutboxEvent) (events : EventTable) : Bool :=
  !events.rows.any fun stored =>
    stored.eventType = event.eventType ∧ stored.idempotencyKey = event.idempotencyKey

def emitEvent (now : Time) (pk : Uuid) (arguments : EmitArguments)
    (events : EventTable) : Except DbError EventTable :=
  let event := arguments.event now pk
  if event.fitsColumns then
    if event.isUniqueIn events then
      match events.insert? event with
      | some grown => .ok grown
      | none => .error .integrityError
    else .error .integrityError
  else .error .dataError

/-! ## Phase 1: fetch -/

/-- `status=PENDING, next_attempt_at__lte=now`; a null column matches nothing. -/
def OutboxEvent.isDue (now : Time) (event : OutboxEvent) : Bool :=
  event.status = .pending ∧ event.nextAttemptAt.any (· ≤ now)

/-- `Meta.ordering` of the outbox: newest first. -/
def OutboxEvent.newestFirst : RowOrder OutboxEvent :=
  .sortedBy fun left right => right.createdAt ≤ left.createdAt

/-- The rows that the locking query returns. It passes over the rows that other
transactions have locked. `Meta.ordering` leaves open the order of events created
at one time, so the order is a parameter. -/
def fetchPending (now : Time) (batchSize : Nat) (order : RowOrder OutboxEvent)
    (locked : Uuid → Bool) (events : EventTable) : List OutboxEvent :=
  (order.arrange
    (events.rows.filter fun event => event.isDue now && !locked event.pk)).take batchSize

/-! ## Phase 2: deliver -/

/-- `not ep.event_types or event.event_type in ep.event_types`. -/
def WebhookEndpoint.matches (endpoint : WebhookEndpoint) (eventType : String) :
    Except Raised Bool :=
  if endpoint.eventTypes.truthy then
    match endpoint.eventTypes.contains? eventType with
    | some found => .ok found
    | none => .error .typeError
  else .ok true

/-- The comprehension that selects the endpoints of an event. -/
def matchingEndpoints (eventType : String) :
    List WebhookEndpoint → Except Raised (List WebhookEndpoint)
  | [] => .ok []
  | endpoint :: rest =>
      match endpoint.matches eventType with
      | .error raised => .error raised
      | .ok chosen =>
          (matchingEndpoints eventType rest).map fun others =>
            if chosen then endpoint :: others else others

abbrev Post := Uuid × Uuid

structure EventResult where
  allOk : Bool
  error : String

/-- The loop over the matching endpoints of one event: the requests made, and the
errors collected unless an exception left the loop. -/
def deliverToMatching (http : Http) (event : OutboxEvent) :
    List WebhookEndpoint → List Post × Except Raised (List String)
  | [] => ([], .ok [])
  | endpoint :: rest =>
      match deliverToEndpoint http endpoint event with
      | .error raised => ([(event.pk, endpoint.pk)], .error raised)
      | .ok result =>
          let later := deliverToMatching http event rest
          ((event.pk, endpoint.pk) :: later.1,
            later.2.map fun errors =>
              if result.ok then errors
              else (endpoint.url ++ ": " ++ result.error) :: errors)

/-- The value stored for an event once its matching endpoints have been tried. -/
def collectErrors (errors : List String) : EventResult :=
  ⟨errors.length = 0, "; ".intercalate errors⟩

/-- The loop body for one event. -/
def deliverEvent (http : Http) (endpoints : List WebhookEndpoint)
    (event : OutboxEvent) : List Post × Except Raised EventResult :=
  match http.interruptBefore event.pk with
  | some raised => ([], .error raised)
  | none =>
      match matchingEndpoints event.eventType endpoints with
      | .error raised => ([], .error raised)
      | .ok [] => ([], .ok ⟨true, ""⟩)
      | .ok (first :: rest) =>
          let delivered := deliverToMatching http event (first :: rest)
          (delivered.1, delivered.2.bind fun errors =>
            match http.interruptAfter event.pk with
            | some raised => .error raised
            | none => .ok (collectErrors errors))

/-- The dict from event keys to results, in insertion order. The events of a batch
have distinct keys, so no entry is ever overwritten. -/
abbrev Results := List (Uuid × EventResult)

/-- What the delivery loop leaves behind: the results, the requests it made, and
the exception that ended it early. -/
structure Delivery where
  results : Results
  posts : List Post
  stopped : Option Raised

def deliverEvents (http : Http) (endpoints : List WebhookEndpoint) :
    List OutboxEvent → Delivery
  | [] => ⟨[], [], none⟩
  | event :: rest =>
      match deliverEvent http endpoints event with
      | (posts, .error raised) => ⟨[], posts, some raised⟩
      | (posts, .ok result) =>
          let later := deliverEvents http endpoints rest
          ⟨(event.pk, result) :: later.results, posts ++ later.posts, later.stopped⟩

/-- The soft time limit is caught and the results so far are kept; any other
exception leaves the function. -/
def Delivery.caught (delivery : Delivery) : Except Raised Results :=
  match delivery.stopped with
  | none | some .softTimeLimitExceeded => .ok delivery.results
  | some raised => .error raised

def activeEndpoints (endpoints : List WebhookEndpoint) : List WebhookEndpoint :=
  endpoints.filter (·.isActive)

/-! ## Phase 3: update -/

/-- Which branch the update of an event takes. -/
inductive Verdict where
  | delivered
  | failed
  | retry
deriving DecidableEq, Repr

def verdict (result : EventResult) (attempts maxAttempts : Nat) : Verdict :=
  if result.allOk then .delivered
  else if attempts ≥ maxAttempts then .failed
  else .retry

def backoffDelay (attempts : Nat) : Nat := min (60 * 2 ^ (attempts - 1)) 3600

/-- A draw of `random.random()`. -/
abbrev Draw := { value : ℚ // 0 ≤ value ∧ value ≤ 1 }

/-- `random.uniform`, in doubles. -/
def uniform (low high : ℚ) (draw : Draw) : ℚ :=
  double (low + double (double (high - low) * draw.val))

/-- `timedelta(seconds=...)`, which keeps microseconds: exactly those of the whole seconds, and
those of the rest as a double, rounded. -/
def timedelta (secondCount : ℚ) : Time :=
  ⌊secondCount⌋ * 1000000 +
    roundHalfEven (double ((secondCount - ⌊secondCount⌋) * 1000000))

/-- `delay + jitter`. -/
def retrySeconds (attempts : Nat) (draw : Draw) : ℚ :=
  let delay : ℚ := backoffDelay attempts
  double (delay + uniform 0 (double (delay * double (1 / 10))) draw)

/-- The event object of the run after its result is applied to it. -/
def applyResult (now : Time) (draw : Draw) (result : EventResult)
    (event : OutboxEvent) : OutboxEvent :=
  match verdict result (event.attempts + 1) event.maxAttempts with
  | .delivered =>
      { event with
        attempts := event.attempts + 1
        status := .delivered
        deliveredAt := some now
        nextAttemptAt := none
        errorMessage := "" }
  | .failed =>
      { event with
        attempts := event.attempts + 1
        status := .failed
        nextAttemptAt := none
        errorMessage := result.error }
  | .retry =>
      { event with
        attempts := event.attempts + 1
        nextAttemptAt := some (now + timedelta (retrySeconds (event.attempts + 1) draw))
        errorMessage := result.error }

/-- The columns named in `update_fields`, copied from the object onto the row. -/
def OutboxEvent.saveOnto (object : OutboxEvent) (now : Time)
    (row : OutboxEvent) : OutboxEvent :=
  { row with
    status := object.status
    attempts := object.attempts
    deliveredAt := object.deliveredAt
    nextAttemptAt := object.nextAttemptAt
    errorMessage := object.errorMessage
    updatedAt := now }

@[simp] theorem OutboxEvent.pk_saveOnto (object : OutboxEvent) (now : Time)
    (row : OutboxEvent) : (object.saveOnto now row).pk = row.pk := rfl

def writeEvent (now : Time) (object : OutboxEvent) (events : EventTable) : EventTable :=
  events.updateWhere (·.pk = object.pk) (object.saveOnto now) (object.pk_saveOnto now)

/-- PostgreSQL has no texts with a null character, and no integers beyond its column's bound. -/
def postgresRefuses (object : OutboxEvent) : Bool :=
  object.errorMessage.toList.any (· = Char.ofNat 0) || positiveIntegerMax < object.attempts

/-- `event.save(update_fields=[...])`, which fails if the database refuses a value of it, and if
the row is gone. -/
def saveEvent (now : Time) (refuses : OutboxEvent → Bool) (object : OutboxEvent)
    (events : EventTable) : Except DbError EventTable :=
  if refuses object then .error .dataError
  else if object.pk ∈ events.keys then .ok (writeEvent now object events)
  else .error .databaseError

structure Progress where
  events : EventTable
  deliveredCount : Nat
  failedCount : Nat

/-- The update loop; an error rolls the whole transaction back. -/
def updateEvents (now : Time) (random : Uuid → Draw) (refuses : OutboxEvent → Bool)
    (results : Results) : List OutboxEvent → Progress → Except DbError Progress
  | [], progress => .ok progress
  | event :: rest, progress =>
      match results.lookup event.pk with
      | none => updateEvents now random refuses results rest progress
      | some result =>
          let object := applyResult now (random event.pk) result event
          let outcome := verdict result (event.attempts + 1) event.maxAttempts
          match saveEvent now refuses object progress.events with
          | .error error => .error error
          | .ok events =>
              updateEvents now random refuses results rest
                { events
                  deliveredCount :=
                    progress.deliveredCount + if outcome = .delivered then 1 else 0
                  failedCount :=
                    progress.failedCount + if outcome = .failed then 1 else 0 }

/-! ## The whole run -/

/-- The dict that `process_pending_events` returns. -/
structure Summary where
  processed : Nat
  delivered : Nat
  failed : Nat
  remaining : Nat
deriving DecidableEq, Repr

/-- What one run meets: its two clock readings, the order of its query, the
endpoint rows, the answers to its requests, its random draws, and what its database
refuses to store. -/
structure RunInput where
  fetchedAt : Time
  updatedAt : Time
  batchSize : Nat := deliveryBatchSize
  order : RowOrder OutboxEvent := OutboxEvent.newestFirst
  endpoints : List WebhookEndpoint
  http : Http
  random : Uuid → Draw
  refuses : OutboxEvent → Bool := postgresRefuses

inductive RunError where
  | raised (error : Raised)
  | database (error : DbError)
deriving DecidableEq, Repr

structure RunOutcome where
  events : EventTable
  posts : List Post
  returned : Except RunError Summary

def pendingCount (events : EventTable) : Nat := events.count (·.status = .pending)

def RunInput.batch (input : RunInput) (events : EventTable) : List OutboxEvent :=
  fetchPending input.fetchedAt input.batchSize input.order (fun _ => false) events

def RunInput.delivery (input : RunInput) (batch : List OutboxEvent) : Delivery :=
  deliverEvents input.http (activeEndpoints input.endpoints) batch

/-- Phases 2 and 3 for a batch, with the table that phase 3 finds. -/
def deliverAndUpdate (input : RunInput) (batch : List OutboxEvent)
    (events : EventTable) : RunOutcome :=
  let delivery := input.delivery batch
  match delivery.caught with
  | .error raised => ⟨events, delivery.posts, .error (.raised raised)⟩
  | .ok results =>
      match updateEvents input.updatedAt input.random input.refuses results batch
          ⟨events, 0, 0⟩ with
      | .error error => ⟨events, delivery.posts, .error (.database error)⟩
      | .ok progress =>
          ⟨progress.events, delivery.posts, .ok
            ⟨results.length, progress.deliveredCount, progress.failedCount,
              pendingCount progress.events⟩⟩

/-- A run during which nobody else writes. -/
def processPendingEvents (input : RunInput) (events : EventTable) : RunOutcome :=
  let batch := input.batch events
  if batch.isEmpty then ⟨events, [], .ok ⟨0, 0, 0, pendingCount events⟩⟩
  else deliverAndUpdate input batch events

/-! ## Cleanup -/

/-- `status__in=[DELIVERED, FAILED], created_at__lt=cutoff`. -/
def OutboxEvent.isExpiredTerminal (cutoff : Time) (event : OutboxEvent) : Bool :=
  (event.status = .delivered ∨ event.status = .failed) ∧ event.createdAt < cutoff

/-- The keys of the first batch of expired terminal events. -/
def selectTerminal (cutoff : Time) (events : EventTable) : List Uuid :=
  (((events.rows.filter (·.isExpiredTerminal cutoff)).insertionSort
    fun left right => left.pk ≤ right.pk).map (·.pk)).take cleanupBatchSize

def deleteEvents (keys : List Uuid) (events : EventTable) : EventTable :=
  events.deleteWhere (·.pk ∈ keys)

structure CleanupSummary where
  deleted : Nat
  remaining : Nat
deriving DecidableEq, Repr

def cleanupDeliveredEvents (now : Time) (retentionHours : Int) (events : EventTable) :
    EventTable × CleanupSummary :=
  let cutoff := now - hours retentionHours
  let totalTerminal := events.count (·.isExpiredTerminal cutoff)
  if totalTerminal = 0 then (events, ⟨0, 0⟩)
  else
    let batchPks := selectTerminal cutoff events
    let deletedCount := events.count (·.pk ∈ batchPks)
    (deleteEvents batchPks events, ⟨deletedCount, totalTerminal - deletedCount⟩)

/-! ## Admin action -/

/-- The columns that `retry_failed_events` writes. -/
def OutboxEvent.reset (now : Time) (event : OutboxEvent) : OutboxEvent :=
  { event with
    status := .pending
    nextAttemptAt := some now
    errorMessage := ""
    attempts := 0 }

@[simp] theorem OutboxEvent.pk_reset (now : Time) (event : OutboxEvent) :
    (event.reset now).pk = event.pk := rfl

def retryFailedEvents (now : Time) (selected : List Uuid) (events : EventTable) :
    EventTable :=
  events.updateWhere (fun event => event.status = .failed ∧ event.pk ∈ selected)
    (·.reset now) (OutboxEvent.pk_reset now)

/-! ## A small setting in which runs are evaluated -/

namespace Sample

def key : Uuid := ⟨1, by decide⟩

def arguments : EmitArguments := ⟨"UploadFile", "1", "file.stored", none, none⟩

def endpoint : WebhookEndpoint :=
  ⟨⟨2, by decide⟩, "https://example.org/hook", "secret", .array [], true⟩

def answering (statusCode : Nat) : Http :=
  ⟨fun _ => "{}", fun _ _ => .response statusCode "", fun _ => none, fun _ => none⟩

def random : Uuid → Draw := fun _ => ⟨0, by decide⟩

/-- A database that takes every value. -/
def takesAll : OutboxEvent → Bool := fun _ => false

def event : OutboxEvent := arguments.event 0 key

def expiringEvent : OutboxEvent :=
  { arguments with eventType := "file.expiring" }.event 0 ⟨3, by decide⟩

def twoEvents : EventTable := ⟨[event, expiringEvent], by decide⟩

def subscriber (endpoint : WebhookEndpoint) (eventType : String) : WebhookEndpoint :=
  { endpoint with eventTypes := .array [.string eventType] }

/-- A run in which a second endpoint, for the other type of events, has no valid URL. -/
def invalidUrlRun : RunInput :=
  { fetchedAt := 0
    updatedAt := 1
    endpoints :=
      [subscriber endpoint "file.stored",
        subscriber { endpoint with pk := ⟨4, by decide⟩ } "file.expiring"]
    http :=
      { answering 200 with
        post := fun destination _ =>
          if destination = endpoint.pk then .response 200 ""
          else .raised (.other "InvalidURL") }
    random }

/-- A run that the soft time limit reaches before the expiring event. -/
def softLimitRun : RunInput :=
  { fetchedAt := 0
    updatedAt := 1
    endpoints := [endpoint]
    http :=
      { answering 200 with
        interruptBefore := fun pk =>
          if pk = expiringEvent.pk then some .softTimeLimitExceeded else none }
    random }

end Sample

end Doorito.Common
