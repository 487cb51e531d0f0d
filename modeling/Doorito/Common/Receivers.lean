import Doorito.Common.CivilDates
import Doorito.Common.EventHistory
import Doorito.Common.JsonBody
import Doorito.Common.Webhook

/-! What the receiver of a request makes of it. One that knows the secret of its endpoint can
tell that the body is as it was sent, and reads the payload of the event from it. -/

set_option autoImplicit false

namespace Doorito.Common

open Foundation

/-- The value of the first member with the name. -/
def Json.member? (name : String) : Json → Option Json
  | .object members => members.lookup name
  | _ => none

/-- The body of a request, unless its signature is not that of the body. -/
def received (secret : String) (request : WebhookRequest) : Option Json :=
  let signature := computeSignature request.content secret
  if request.headers.lookup "X-Webhook-Signature" = some signature then
    Json.read (Utf8.decode request.content)
  else none

/-- Bodies are written by `json.dumps`. -/
def Http.WritesJson (http : Http) (floatRepr : Int → Nat → Text) : Prop :=
  ∀ json, http.dumps json = String.ofList (json.dumps floatRepr)

/-- The receiver of a request reads the payload of its event. -/
theorem received_webhookRequest {http : Http} {floatRepr : Int → Nat → Text}
    (writes : http.WritesJson floatRepr) (endpoint : WebhookEndpoint) {event : OutboxEvent}
    (integral : event.payload.Integral) :
    received endpoint.secret (webhookRequest http endpoint event) = some event.payload := by
  have content : (webhookRequest http endpoint event).content =
      Utf8.encode (event.payload.dumps floatRepr) := by
    simp only [webhookRequest, writes event.payload]
    exact Utf8.toList_toUTF8 _
  have signed : (webhookRequest http endpoint event).headers.lookup "X-Webhook-Signature" =
      some (computeSignature (webhookRequest http endpoint event).content endpoint.secret) := by
    simp [webhookRequest, List.lookup_cons]
  rw [received, if_pos signed, content, Utf8.decode_encode, Json.read_dumps floatRepr integral]

end Doorito.Common
