import Mathlib.Algebra.Group.Nat.Defs
import SmsRelay.Native.Db
import SmsRelay.Native.Notifications
import SmsRelay.Native.Schemas

/-!
# The send and query API

`sms_relay/routes/messages.py`: `send_message` as a step function between its awaits, and
`get_message` and `list_messages` as functions of what their queries see.  `grafana` builds
a `SendRequest` from its payload and calls `send_message` with the same session, so its
calls are among the calls that `begin` starts.
-/

namespace SmsRelay

/-- `SendRequest`: only values that pass the schema's validation exist. -/
structure SendRequest where
  recipients : String ⊕ List String
  body : String
  idempotencyKey : Option String
  notificationPriority : Int
  body_length : 1 ≤ body.length ∧ body.length ≤ 4000
  key_length : ∀ key ∈ idempotencyKey, key.length ≤ 128
  priority_range : 1 ≤ notificationPriority ∧ notificationPriority ≤ 5

/-- `scalar_one_or_none()`: `MultipleResultsFound` is raised on two rows or more. -/
def scalarOneOrNone {α : Type} : List α → Except PyError (Option α)
  | [] => .ok none
  | [x] => .ok (some x)
  | _ => .error (.other "MultipleResultsFound")

namespace SendMessage

/-- `[request.to] if isinstance(request.to, str) else list(request.to)` -/
def recipientsOf (request : SendRequest) : List String :=
  match request.recipients with
  | .inl recipient => [recipient]
  | .inr recipients => recipients

/-- `if request.idempotency_key:` — `None` and the empty string are no key. -/
def keyOf (request : SendRequest) : Option String :=
  match request.idempotencyKey with
  | some key => if key = "" then none else some key
  | none => none

/-- The checks of `send_message` before its first await: the normalized recipients, or
    the `HTTPException`. -/
def validate (lib : Lib) (cfg : Settings) (request : SendRequest) :
    Except PyError (List String) :=
  if recipientsOf request = [] then .error (.httpException 422 "no recipients")
  else
    match (recipientsOf request).mapM fun r => normalize lib cfg (.str r) with
    | .error (.invalidPhoneNumber text) => .error (.httpException 422 text)
    | .error e => .error e
    | .ok normalized =>
      if (keyOf request).isSome ∧ 1 < normalized.length then
        .error (.httpException 422 "idempotency_key is only valid for a single recipient")
      else .ok normalized

/-- The `SELECT` of `_existing_by_idempotency_key`. -/
def existingByIdempotencyKey (db : Store) (service key : String) : List Message :=
  db.messages.filter fun m => m.service = service && m.idempotencyKey = some key

/-- One row of `created`, with its topic and transport. -/
def newMessage (service : String) (request : SendRequest) (id toNumber : String)
    (topic : Option String) (now : Time) : Message where
  id := id
  direction := .outbound
  status := .queued
  toNumber := some toNumber
  fromNumber := none
  body := request.body
  service := service
  idempotencyKey := request.idempotencyKey
  transport := if topic.isSome then .ntfy else .sms
  notificationTopic := topic
  notificationPriority := request.notificationPriority
  attempts := 0
  nextAttemptAt := some now
  providerMessageId := none
  error := none
  createdAt := now
  updatedAt := now
  sentAt := none

/-- The rows `send_message` adds to its session, or what `topic_for` raised. -/
def created (lib : Lib) (cfg : Settings) (env : Env) (service : String)
    (request : SendRequest) (now : Time) : List (String × String) → Except PyError (List Message)
  | [] => .ok []
  | (id, toNumber) :: rest => do
    let topic ← topicFor lib cfg env service toNumber request.body
    let messages ← created lib cfg env service request now rest
    return newMessage service request id toNumber topic now :: messages

/-- What the caller gets: a 202 with the rows, or the exception. -/
inductive Answer where
  | accepted (messages : List Message)
  | raised (e : PyError)

/-- Where a call stands. -/
inductive Pc where
  /-- No call. -/
  | idle
  /-- Awaiting the lookup of the key. -/
  | lookup (service : String) (request : SendRequest) (normalized : List String)
  /-- About to build the rows. -/
  | creating (service : String) (request : SendRequest) (normalized : List String)
  /-- Awaiting the commit. -/
  | committing (service : String) (request : SendRequest) (rows : List Message)
  /-- Awaiting the rollback and the lookup after an `IntegrityError`. -/
  | recovering (service : String) (request : SendRequest)
  | done (service : String) (request : SendRequest) (answer : Answer)

inductive Act where
  | begin (service : String) (request : SendRequest)
  | lookup
  | create (uuids : List String) (now : Time)
  | commit
  | integrityError
  | recover
  | dbError

/-- The answer to a lookup that found a row. -/
def replay (service : String) (request : SendRequest) (m : Message) : Pc :=
  .done service request (.accepted [m])

/-- The state after the first lookup. -/
def afterLookup (db : Store) (service : String) (request : SendRequest)
    (normalized : List String) (key : String) : Pc :=
  match scalarOneOrNone (existingByIdempotencyKey db service key) with
  | .error e => .done service request (.raised e)
  | .ok (some m) => replay service request m
  | .ok none => .creating service request normalized

/-- The state after the rollback and the second lookup; without a row the
    `IntegrityError` is raised again. -/
def afterRecovery (db : Store) (service : String) (request : SendRequest) : Pc :=
  match keyOf request with
  | none => .done service request (.raised (.other "IntegrityError"))
  | some key =>
    match scalarOneOrNone (existingByIdempotencyKey db service key) with
    | .error e => .done service request (.raised e)
    | .ok (some m) => replay service request m
    | .ok none => .done service request (.raised (.other "IntegrityError"))

/-- One step of a call on the committed database.  The answer leaves the process after the
    step that ends the call, a commit for one that has stored rows; a crash in between keeps
    it from the caller. -/
def step (lib : Lib) (cfg : Settings) (env : Env) (db : Store) :
    Pc → Act → Option (Store × Pc)
  | .idle, .begin service request =>
    match validate lib cfg request with
    | .error e => some (db, .done service request (.raised e))
    | .ok normalized =>
      some (db, if (keyOf request).isSome then .lookup service request normalized
        else .creating service request normalized)
  | .lookup service request normalized, .lookup =>
    (keyOf request).map fun key => (db, afterLookup db service request normalized key)
  | .creating service request normalized, .create uuids now =>
    if uuids.length = normalized.length then
      match created lib cfg env service request now (uuids.zip normalized) with
      | .error e => some (db, .done service request (.raised e))
      | .ok rows => some (db, .committing service request rows)
    else none
  | .committing service request rows, .commit =>
    (db.insertMessages rows).map fun db' => (db', .done service request (.accepted rows))
  | .committing service request rows, .integrityError =>
    match db.insertMessages rows with
    | none => some (db, .recovering service request)
    | some _ => none
  | .recovering service request, .recover => some (db, afterRecovery db service request)
  | .lookup service request _, .dbError =>
    some (db, .done service request (.raised (.other "database")))
  | .committing service request _, .dbError =>
    some (db, .done service request (.raised (.other "database")))
  | .recovering service request, .dbError =>
    some (db, .done service request (.raised (.other "database")))
  | _, _ => none

/-- What the caller gets when the action `a` has ended its call: rows that were just
    committed have the timestamps of their objects, rows that were read have lost theirs. -/
def response (a : Act) : Answer → Except PyError SendResponse
  | .raised e => .error e
  | .accepted rows =>
    match a with
    | .commit => .ok ⟨rows.map (MessageOut.of .current)⟩
    | _ => .ok ⟨rows.map (MessageOut.of .loaded)⟩

end SendMessage

/-- `get_message`. -/
def getMessage (db : Store) (service messageId : String) : Except PyError MessageOut :=
  match db.message? messageId with
  | none => .error (.httpException 404 "message not found")
  | some m =>
    if m.direction = .outbound ∧ m.service ≠ service then
      .error (.httpException 404 "message not found")
    else .ok (MessageOut.of .loaded m)

namespace ListMessages

/-- The query parameters of `list_messages` that have passed their validation. -/
structure ListQuery where
  direction : Option String
  status : Option String
  limit : Nat
  offset : Nat
  limit_range : 1 ≤ limit ∧ limit ≤ 500

/-- `if value: filters.append(column == value)` — an absent or empty value filters nothing. -/
def passes (value : Option String) (column : String) : Bool :=
  match value with
  | none => true
  | some v => v = "" || column = v

/-- `(Message.service == service) | (Message.direction == Direction.INBOUND)` -/
def scope (service : String) (m : Message) : Bool := m.service = service || m.direction = .inbound

/-- `filters`: shared by the count and the page. -/
def filters (service : String) (q : ListQuery) (m : Message) : Bool :=
  scope service m && passes q.direction m.direction.value && passes q.status m.status.value

/-- What SQLite makes of `ORDER BY created_at DESC`.  SQL leaves open how rows with one
    `created_at` are ordered: that depends on the statement and on the order in which the
    matching rows were inserted. -/
structure RowOrder where
  rows : (service : String) → (direction status : Option String) → List Message → List Message
  perm : ∀ service direction status ms, (rows service direction status ms).Perm ms
  sorted : ∀ service direction status ms,
    (rows service direction status ms).Pairwise fun m m' => m'.createdAt ≤ m.createdAt

/-- The rows of all pages, in order. -/
def ordered (order : RowOrder) (db : Store) (service : String) (q : ListQuery) : List Message :=
  order.rows service q.direction q.status (db.messages.filter (filters service q))

end ListMessages

open ListMessages in
/-- `list_messages`, whose two queries may see two states of the database.  An offset that
    is no 64-bit integer cannot be bound to the second one. -/
def listMessages (order : RowOrder) (countDb pageDb : Store) (service : String) (q : ListQuery) :
    Except PyError MessageList :=
  let total := (countDb.messages.filter (filters service q)).length
  if 2 ^ 63 ≤ q.offset then .error (.other "OverflowError")
  else
    .ok
      { messages := (((ordered order pageDb service q).drop q.offset).take q.limit).map
          (MessageOut.of .loaded)
        total := total }

end SmsRelay
