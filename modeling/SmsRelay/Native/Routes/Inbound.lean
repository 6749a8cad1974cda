import SmsRelay.Native.Db
import SmsRelay.Native.Phone
import SmsRelay.Native.Webhooks
import SmsRelay.Native.Routes.Messages

/-!
# The inbound webhook

`android_gateway_inbound` of `sms_relay/routes/inbound.py`, with `_extract`,
`_apply_receipt` and `_parse_timestamp`, as a step function between its awaits.  It
starts from the body that `verify_inbound_signature` has let through.
-/

namespace SmsRelay

open UnitOfWork

namespace Inbound

/-- `event.get("payload") if isinstance(event.get("payload"), dict) else event` -/
def payloadOf (event : List (PyStr × Json PyStr)) : List (PyStr × Json PyStr) :=
  match Json.get event "payload" with
  | .obj payload => payload
  | _ => event

/-- What `_extract` pulls out of an event, before any normalization. -/
structure Extracted where
  sender : Json PyStr
  body : Json PyStr
  providerId : PyStr
  receivedAt : Json PyStr

/-- `_extract(event)`. -/
def extract (lib : Lib) (event : List (PyStr × Json PyStr)) : Extracted :=
  let payload := payloadOf event
  { sender := ((Json.get payload "phoneNumber").or (Json.get payload "from")).or
      (Json.get payload "sender")
    body := (((Json.get payload "message").or (Json.get payload "text")).or
      (Json.get payload "body")).or (.str "")
    providerId := lib.str ((((Json.get event "id").or (Json.get payload "messageId")).or
      (Json.get payload "id")).or (.str ""))
    receivedAt := (Json.get payload "receivedAt").or (Json.get event "receivedAt") }

/-- The id `_apply_receipt` looks up. -/
def receiptId (lib : Lib) (event : List (PyStr × Json PyStr)) : PyStr :=
  let payload := payloadOf event
  lib.str (((Json.get payload "messageId").or (Json.get payload "id")).or (.str ""))

/-- `from_number`: the E.164 form, or the first characters of whatever does not
    normalize.  Only `InvalidPhoneNumber` is caught. -/
def fromNumber (lib : Lib) (cfg : Settings) (sender : Json PyStr) :
    Except PyError (Option PyStr) :=
  if sender.truthy then
    match normalize lib cfg sender with
    | .ok number => .ok (some number)
    | .error (.invalidPhoneNumber _) => .ok (some ((lib.str sender).sliceTo 20))
    | .error e => .error e
  else .ok none

/-- `value.replace("Z", "+00:00")` -/
def replaceZ : PyStr → PyStr
  | .text s =>
    .text (String.ofList (s.toList.flatMap fun c => if c = 'Z' then "+00:00".toList else [c]))
  | .lone s =>
    .lone { s with
      before := s.before.flatMap fun c => if c = 'Z' then "+00:00".toList else [c]
      after := s.after.flatMap fun c =>
        if c = .char 'Z' then "+00:00".toList.map .char else [c] }

/-- `_parse_timestamp(value)`: an aware `datetime`, now when the value is no timestamp. -/
def parseTimestamp (lib : Lib) (now : Time) (value : Json PyStr) : DateTime :=
  match value with
  | .str s =>
    match lib.fromisoformat (replaceZ s) with
    | some parsed =>
      if parsed.utcoffset.isSome then parsed else { parsed with utcoffset := some 0 }
    | none => ⟨now, some 0⟩
  | _ => ⟨now, some 0⟩

/-- An inbound message on its way into the database. -/
structure Draft where
  fromNumber : Option PyStr
  /-- The text, still the JSON value the event had. -/
  body : Json PyStr
  /-- The gateway's id; empty when the event had none. -/
  providerId : PyStr
  receivedAt : Json PyStr

/-- Bind `None` or a `str`; `none` when it has a surrogate. -/
def bindOptional : Option PyStr → Option (Option String)
  | none => some none
  | some s => s.encode.map some

/-- The row `android_gateway_inbound` adds; `none` when a column cannot be bound. -/
def newMessage (lib : Lib) (draft : Draft) (id : String) (now : Time) : Option Message :=
  match lib.bindText draft.body, bindOptional draft.fromNumber, draft.providerId.encode with
  | some (some body), some fromNumber, some providerId =>
    some
      { id := id
        direction := .inbound
        status := .received
        toNumber := none
        fromNumber := fromNumber
        body := body
        service := "inbound"
        idempotencyKey := none
        transport := .sms
        notificationTopic := none
        notificationPriority := 3
        attempts := 0
        nextAttemptAt := none
        providerMessageId := if providerId = "" then none else some providerId
        error := none
        createdAt := (parseTimestamp lib now draft.receivedAt).fields
        updatedAt := now
        sentAt := none }
  | _, _, _ => none

inductive Answer where
  | ignored
  | unknown
  | updated (id : String)
  | duplicate (id : String)
  | accepted (id : String) (subscribers : Nat)
  | raised (e : PyError)
  deriving DecidableEq, Repr

/-- Where a call stands. -/
inductive Pc where
  /-- No call. -/
  | idle
  /-- Awaiting the dedup `SELECT`. -/
  | dedup (draft : Draft)
  /-- About to add the message and flush it. -/
  | adding (draft : Draft)
  /-- The message is flushed; about to call `enqueue_fanout`. -/
  | flushed (message : Message)
  /-- Awaiting the commit of the message and its deliveries. -/
  | fanned (message : Message) (deliveries : List WebhookDelivery)
  /-- Awaiting a commit that will raise: sqlite3 cannot bind a subscriber's name or url. -/
  | unbindable
  /-- Awaiting the `SELECT` of `_apply_receipt`. -/
  | receipt (providerId : PyStr) (delivered : Bool)
  /-- Awaiting the commit of `_apply_receipt`. -/
  | receiptCommit (o : Tracked Message)
  | done (answer : Answer)

inductive Act where
  /-- What `json.loads` makes of the body. -/
  | begin (event : Except LoadsError (Json PyStr))
  | select
  | flush (uuid : String) (now : Time)
  | enqueue (uuids : List String) (now : Time)
  | commit (now : Time)
  | dbError

/-- A text message: `_extract`, the check of the body and the sender. -/
def beginMessage (lib : Lib) (cfg : Settings) (event : List (PyStr × Json PyStr)) : Pc :=
  let e := extract lib event
  if !e.body.truthy then .done (.raised (.httpException 400 "message body is empty"))
  else
    match fromNumber lib cfg e.sender with
    | .error err => .done (.raised err)
    | .ok number =>
      let draft : Draft := ⟨number, e.body, e.providerId, e.receivedAt⟩
      if e.providerId = "" then .adding draft else .dedup draft

/-- A delivery receipt pushed by the gateway. -/
def beginReceipt (lib : Lib) (event : List (PyStr × Json PyStr)) (delivered : Bool) : Pc :=
  let providerId := receiptId lib event
  if providerId = "" then .done .ignored else .receipt providerId delivered

/-- The start of `android_gateway_inbound`, up to its first await: `except
    json.JSONDecodeError` is the only handler around `json.loads`. -/
def begin (lib : Lib) (cfg : Settings) : Except LoadsError (Json PyStr) → Pc
  | .error .jsonDecodeError => .done (.raised (.httpException 400 "body is not JSON"))
  | .error e => .done (.raised e.toPyError)
  | .ok (.obj event) =>
    match (Json.lookup event "event").getD (.str "sms:received") with
    | .str "sms:received" => beginMessage lib cfg event
    | .str "message.received" => beginMessage lib cfg event
    | .str "sms:delivered" => beginReceipt lib event true
    | .str "sms:sent" => beginReceipt lib event false
    | _ => .done .ignored
  | .ok _ => .done (.raised (.httpException 400 "expected a JSON object"))

/-- The dedup `SELECT`. -/
def alreadyStored (db : Store) (providerId : String) : List Message :=
  db.messages.filter fun m =>
    m.direction = .inbound && m.providerMessageId = some providerId

/-- The state after the dedup `SELECT`, which binds the id. -/
def afterDedup (db : Store) (draft : Draft) : Pc :=
  match draft.providerId.encode with
  | none => .done (.raised .unicodeEncodeError)
  | some providerId =>
    match scalarOneOrNone (alreadyStored db providerId) with
    | .error e => .done (.raised e)
    | .ok (some already) => .done (.duplicate already.id)
    | .ok none => .adding draft

/-- The `SELECT` of `_apply_receipt`. -/
def receiptMatches (db : Store) (providerId : String) : List Message :=
  db.messages.filter fun m => m.providerMessageId = some providerId

/-- `message.status = MessageStatus.DELIVERED` -/
def markDelivered (m : Message) : Message := { m with status := .delivered }

/-- `_apply_receipt` after its `SELECT`, which binds the id. -/
def afterReceiptSelect (db : Store) (providerId : PyStr) (delivered : Bool) : Pc :=
  match providerId.encode with
  | none => .done (.raised .unicodeEncodeError)
  | some providerId =>
    match scalarOneOrNone (receiptMatches db providerId) with
    | .error e => .done (.raised e)
    | .ok none => .done .unknown
    | .ok (some m) =>
      if delivered then .receiptCommit ((Tracked.load m).assign markDelivered)
      else .done (.updated m.id)

/-- The names `enqueue_fanout` finds already stored for the message. -/
def existingDeliveries (db : Store) (messageId : String) : List String :=
  (db.deliveries.filter fun d => d.messageId = messageId).map WebhookDelivery.subscriber

/-- `enqueue_fanout` for a flushed message. -/
def enqueue (env : Env) (db : Store) (message : Message) (uuids : List String) (now : Time) :
    Option Pc :=
  match env.subscribers with
  | .error e => some (.done (.raised e))
  | .ok subscribers =>
    let subs := Webhooks.toEnqueue subscribers (existingDeliveries db message.id)
    if uuids.length = subs.length then
      match Webhooks.enqueueFanout message.id subs uuids now with
      | some deliveries => some (.fanned message deliveries)
      | none => some .unbindable
    else none

/-- One step of a call on the committed database. -/
def step (lib : Lib) (cfg : Settings) (env : Env) (db : Store) :
    Pc → Act → Option (Store × Pc)
  | .idle, .begin event => some (db, begin lib cfg event)
  | .dedup draft, .select => some (db, afterDedup db draft)
  | .adding draft, .flush uuid now =>
    match newMessage lib draft uuid now with
    | some message => some (db, .flushed message)
    | none => some (db, .done (.raised (.other "cannot store the message")))
  | .flushed message, .enqueue uuids now =>
    (enqueue env db message uuids now).map fun pc => (db, pc)
  | .fanned message deliveries, .commit _ =>
    (db.insertInbound message deliveries).map fun db' =>
      (db', .done (.accepted message.id deliveries.length))
  | .unbindable, .commit _ => some (db, .done (.raised .unicodeEncodeError))
  | .receipt providerId delivered, .select =>
    some (db, afterReceiptSelect db providerId delivered)
  | .receiptCommit o, .commit now =>
    (db.updateMessages now [o]).map fun db' => (db', .done (.updated o.loaded.id))
  | .idle, .dbError => none
  | .done _, .dbError => none
  | _, .dbError => some (db, .done (.raised (.other "database")))
  | _, _ => none

end Inbound

end SmsRelay
