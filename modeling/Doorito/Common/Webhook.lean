import Doorito.Common.Models
import Doorito.Foundation.Sha256

/-! Delivery of one outbox event to one webhook endpoint
(`common/services/webhook.py`). -/

set_option autoImplicit false

namespace Doorito.Common

open Foundation

/-- Exceptions that `deliver_to_endpoint` does not catch. -/
inductive Raised where
  | softTimeLimitExceeded
  | typeError
  | other (name : String)
deriving DecidableEq, Repr

/-- What `client.post` does: a response, an `httpx.RequestError`, or any other
exception. An error page whose text cannot be decoded counts as such an exception: reading
`exc.response.text` then raises out of the handler. -/
inductive PostOutcome where
  | response (statusCode : Nat) (text : String)
  | requestError (name message : String)
  | raised (error : Raised)

structure WebhookRequest where
  url : String
  content : Bytes
  headers : List (String × String)

/-- The surroundings of the delivery phase of one run. `post` answers the
request to the endpoint with the given key. A signal may also raise an exception
between two requests, which counts to the earlier one, or before the first request
for an event, or after the last one and before the result is stored. -/
structure Http where
  dumps : Json → String
  post : Uuid → WebhookRequest → PostOutcome
  interruptBefore : Uuid → Option Raised
  interruptAfter : Uuid → Option Raised

structure DeliveryResult where
  ok : Bool
  statusCode : Option Nat
  error : String

def computeSignature (payloadBytes : Bytes) (secret : String) : String :=
  hex (Sha256.hmac secret.toUTF8.toList payloadBytes)

/-- The request of `deliver_to_endpoint`. -/
def webhookRequest (http : Http) (endpoint : WebhookEndpoint)
    (event : OutboxEvent) : WebhookRequest :=
  let payloadBytes := (http.dumps event.payload).toUTF8.toList
  { url := endpoint.url
    content := payloadBytes
    headers :=
      [("Content-Type", "application/json"),
        ("X-Webhook-Signature", computeSignature payloadBytes endpoint.secret),
        ("X-Webhook-Event", event.eventType),
        ("X-Webhook-Delivery", event.pk.str)] }

/-- What `deliver_to_endpoint` makes of the outcome of its request:
`raise_for_status` turns every status outside 200 to 299 into an
`HTTPStatusError`. -/
def PostOutcome.toResult : PostOutcome → Except Raised DeliveryResult
  | .response statusCode text =>
      if 200 ≤ statusCode ∧ statusCode ≤ 299 then
        .ok ⟨true, some statusCode, ""⟩
      else
        .ok ⟨false, some statusCode,
          "HTTP " ++ toString statusCode ++ ": " ++ String.ofList (text.toList.take 200)⟩
  | .requestError name message => .ok ⟨false, none, name ++ ": " ++ message⟩
  | .raised error => .error error

def postEvent (http : Http) (event : OutboxEvent) (endpoint : WebhookEndpoint) :
    PostOutcome :=
  http.post endpoint.pk (webhookRequest http endpoint event)

def deliverToEndpoint (http : Http) (endpoint : WebhookEndpoint)
    (event : OutboxEvent) : Except Raised DeliveryResult :=
  (postEvent http event endpoint).toResult

end Doorito.Common
