import Mathlib.Algebra.Group.Int.Defs
import SmsRelay.Native.Config
import SmsRelay.Native.Models
import SmsRelay.Native.Providers

/-!
# Fan-out of inbound messages

`sms_relay/webhooks.py`: the delivery rows of a new inbound message, and one attempt at
one of them, up to and from its `POST`.
-/

namespace SmsRelay

namespace Webhooks

/-- `MAX_DELIVERY_ATTEMPTS` -/
def maxDeliveryAttempts : Nat := 6

/-- `backoff_seconds`: exponential, capped at an hour. -/
def backoffSeconds (attempts : Nat) : Int := min (30 * 2 ^ (attempts - 1)) 3600

/-- `backoff`. -/
def backoff (now : Time) (attempts : Nat) : Time := now + seconds (backoffSeconds attempts)

/-- `[s for s in settings.subscribers if "message.received" in s.events]` -/
def interested (subscribers : List Subscriber) : List Subscriber :=
  subscribers.filter fun s => "message.received" ∈ s.events

/-- The row of a delivery to a subscriber, under the texts of its name and its url. -/
def newDelivery (messageId id name url : String) (now : Time) : WebhookDelivery where
  id := id
  messageId := messageId
  subscriber := name
  url := url
  status := .pending
  attempts := 0
  nextAttemptAt := some now
  responseCode := none
  error := none
  createdAt := now
  updatedAt := now

/-- The subscribers `enqueue_fanout` adds a row for. -/
def toEnqueue (subscribers : List Subscriber) (existing : List String) : List Subscriber :=
  (interested subscribers).filter fun s => ∀ name ∈ existing, s.name ≠ PyStr.text name

/-- The rows `enqueue_fanout` adds to the session, with the generated ids; `none` when
    sqlite3 will not bind the name or the url of one of them. -/
def enqueueFanout (messageId : String) (subs : List Subscriber) (uuids : List String)
    (now : Time) : Option (List WebhookDelivery) :=
  (uuids.zip subs).mapM fun (id, sub) => do
    let name ← sub.name.encode
    let url ← sub.url.encode
    return newDelivery messageId id name url now

/-- `None` or the string. -/
def optStr : Option String → Json
  | none => .null
  | some s => .str s

/-- The object `_payload` serializes, its keys sorted. -/
def payload (lib : Lib) (m : Message) : Json :=
  .obj
    [("event", .str "message.received"),
      ("message", .obj
        [("body", .str m.body),
          ("from", optStr m.fromNumber),
          ("id", .str m.id),
          ("received_at", .str (lib.isoformat m.createdAt)),
          ("to", optStr m.toNumber)])]

/-- A webhook `POST`. -/
structure Request where
  url : PyStr
  content : String
  headers : List (String × String)
  deriving DecidableEq, Repr

/-- The header for a subscriber with a secret: `sign` encodes the secret. -/
def signature (lib : Lib) (content : String) (secret : PyStr) :
    Except PyError (List (String × String)) :=
  if secret = "" then .ok []
  else
    match secret.encode with
    | some secret => .ok [("X-Signature", lib.hmacSha256 content secret)]
    | none => .error .unicodeEncodeError

/-- The request `deliver` builds. -/
def request (lib : Lib) (sub : Subscriber) (delivery : WebhookDelivery) (m : Message) :
    Except PyError Request :=
  let content := lib.dumps (payload lib m)
  let headers :=
    [("Content-Type", "application/json"),
      ("X-SMS-Relay-Event", "message.received"),
      ("X-SMS-Relay-Delivery", delivery.id)]
  (signature lib content sub.secret).map fun signature =>
    { url := sub.url, content := content, headers := headers ++ signature }

/-- What `deliver` has done when it reaches `client.post`, or when it returns early. -/
inductive Prepared where
  | cancelled (delivery : WebhookDelivery)
  | post (delivery : WebhookDelivery) (request : Request)

/-- `deliver` before its await. -/
def prepare (lib : Lib) (env : Env) (delivery : WebhookDelivery) (m : Message) :
    Except PyError Prepared :=
  env.subscribers.bind fun subscribers =>
    match subscribers.find? fun s => s.name = PyStr.text delivery.subscriber with
    | none =>
      .ok (.cancelled { delivery with
        status := .cancelled
        error := some "subscriber no longer configured" })
    | some sub =>
      (request lib sub delivery m).map fun request =>
        .post { delivery with attempts := delivery.attempts + 1 } request

/-- The end of `deliver` for an attempt that was not acknowledged. -/
def retryOrFail (now : Time) (delivery : WebhookDelivery) : WebhookDelivery :=
  if maxDeliveryAttempts ≤ delivery.attempts then { delivery with status := .failed }
  else
    { delivery with
      status := .pending
      nextAttemptAt := some (backoff now delivery.attempts) }

/-- The object of a delivery when `deliver` returns. -/
structure Concluded where
  /-- The columns; without the new `error` when that cannot be bound. -/
  delivery : WebhookDelivery
  /-- sqlite3 can bind the object's `error`. -/
  bindable : Bool

/-- An attempt that was not acknowledged. -/
def unacknowledged (now : Time) (delivery : WebhookDelivery) (error : PyStr) : Concluded where
  delivery := retryOrFail now { delivery with error := error.encode }
  bindable := error.encode.isSome

/-- `deliver` after its await: `except httpx.HTTPError` is the only handler. -/
def conclude (delivery : WebhookDelivery) (reply : HttpReply) (now : Time) :
    Except PyError Concluded :=
  match reply with
  | .ok response =>
    if response.statusCode < 300 then
      .ok
        { delivery := { delivery with
            responseCode := some response.statusCode
            status := .delivered
            error := none }
          bindable := true }
    else
      match response.text with
      | none => .error (.other "response.text")
      | some text =>
        .ok (unacknowledged now { delivery with responseCode := some response.statusCode }
          ("HTTP " ++ toString response.statusCode ++ ": " ++ text.sliceTo 200))
  | .error (.httpError exc) => .ok (unacknowledged now delivery (exc.sliceTo 500))
  | .error e => .error e.toPyError

end Webhooks

end SmsRelay
