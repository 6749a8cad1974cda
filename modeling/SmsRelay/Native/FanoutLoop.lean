import SmsRelay.Native.Db
import SmsRelay.Native.Webhooks

/-!
# The fan-out loop

`fanout_loop` of `sms_relay/worker.py` as a step function between its awaits.  The batch
shares one session: its identity map, its pending changes and its transaction are part
of the state, because the commit at the end of the batch writes them all together and
because an autoflush inside `session.get` starts the write early.
-/

namespace SmsRelay

open UnitOfWork

namespace FanoutLoop

/-- `LIMIT 20` -/
def batchLimit : Nat := 20

/-- The `WHERE` of the selection. -/
def isDue (now : Time) (d : WebhookDelivery) : Bool :=
  d.status = .pending &&
    match d.nextAttemptAt with
    | none => true
    | some t => t ≤ now

/-- The due rows. -/
def due (db : Store) (now : Time) : List WebhookDelivery := db.deliveries.filter (isDue now)

/-- `batch` is an answer to the selection: the due rows first in `created_at` order, at
    most `batchLimit` of them.  SQL leaves open how rows with one `created_at` are
    ordered. -/
structure IsBatch (db : Store) (now : Time) (batch : List WebhookDelivery) : Prop where
  nodup : batch.Nodup
  mem_due : ∀ d ∈ batch, d ∈ due db now
  sorted : batch.Pairwise fun d d' => d.createdAt ≤ d'.createdAt
  length_eq : batch.length = min batchLimit (due db now).length
  first : ∀ d ∈ due db now, d ∉ batch → ∀ d' ∈ batch, d'.createdAt ≤ d.createdAt

instance (db : Store) (now : Time) (batch : List WebhookDelivery) :
    Decidable (IsBatch db now batch) :=
  decidable_of_iff
    (batch.Nodup ∧ (∀ d ∈ batch, d ∈ due db now) ∧
      (batch.Pairwise fun d d' => d.createdAt ≤ d'.createdAt) ∧
      batch.length = min batchLimit (due db now).length ∧
      ∀ d ∈ due db now, d ∉ batch → ∀ d' ∈ batch, d'.createdAt ≤ d.createdAt)
    ⟨fun ⟨h₁, h₂, h₃, h₄, h₅⟩ => ⟨h₁, h₂, h₃, h₄, h₅⟩,
      fun ⟨h₁, h₂, h₃, h₄, h₅⟩ => ⟨h₁, h₂, h₃, h₄, h₅⟩⟩

/-- The session of a batch. -/
structure Session where
  /-- The deliveries handled so far. -/
  objs : List (Tracked WebhookDelivery)
  /-- The object the loop variable `message` refers to. -/
  message : Option Message
  /-- Messages loaded earlier; nothing but the identity map refers to them. -/
  identity : List Message
  /-- An `UPDATE` has been issued in the open transaction. -/
  updated : Bool
  /-- sqlite3 can bind every pending change; else the next flush raises. -/
  bindable : Bool

namespace Session

/-- The session at the start of a batch. -/
def fresh : Session := ⟨[], none, [], false, true⟩

/-- The messages `session.get` finds without a query.  The identity map is weak, so
    objects that only it refers to may have been collected. -/
def reachable (ses : Session) (collected : List String) : List Message :=
  ses.message.toList ++ ses.identity.filter fun m => m.id ∉ collected

/-- The pending changes an autoflush writes, each row stamped by its `UPDATE`. -/
def autoflush (ses : Session) (now : Time) : Session :=
  { ses with
    objs := ses.objs.map fun o =>
      if o.Dirty then
        o.assign fun d => { d with updatedAt := onUpdate now o.loaded.updatedAt d.updatedAt }
      else o
    updated := ses.updated || decide (∃ o ∈ ses.objs, o.Dirty) }

/-- The session after `message = await session.get(...)`. -/
def hold (ses : Session) (collected : List String) (message : Option Message) : Session :=
  { ses with message := message, identity := ses.reachable collected }

/-- The session after a delivery of the batch was handled. -/
def push (ses : Session) (o : Tracked WebhookDelivery) : Session :=
  { ses with objs := ses.objs ++ [o] }

/-- The session after a delivery of the batch was posted. -/
def conclude (ses : Session) (loaded : WebhookDelivery) (c : Webhooks.Concluded) : Session :=
  { ses.push ⟨loaded, c.delivery⟩ with bindable := ses.bindable && c.bindable }

end Session

/-- Where the loop stands. -/
inductive Pc where
  /-- Awaiting the selection of a batch. -/
  | idle
  /-- Awaiting `session.get` for the first of `todo`, or the commit when it is empty. -/
  | next (ses : Session) (todo : List WebhookDelivery)
  /-- About to call `client.post`. -/
  | ready (ses : Session) (o : Tracked WebhookDelivery) (request : Webhooks.Request)
      (todo : List WebhookDelivery)
  /-- Awaiting `client.post`. -/
  | posting (ses : Session) (o : Tracked WebhookDelivery) (request : Webhooks.Request)
      (todo : List WebhookDelivery)

inductive Act where
  | select (now : Time) (ids : List String)
  | get (collected : List String) (now : Time)
  | post (id : String)
  | posted (id : String) (reply : HttpReply) (now : Time)
  | commit (now : Time)
  | dbError

/-- `session.get(Message, message_id)`: the object of the identity map, else a `SELECT`
    that first flushes the pending changes; `none` when that flush raises because a
    row is gone or a change cannot be bound. -/
def getMessage (db : Store) (ses : Session) (collected : List String) (now : Time)
    (messageId : String) : Option (Session × Option Message) :=
  match (ses.reachable collected).find? fun m => m.id = messageId with
  | some m => some (ses.hold collected (some m), some m)
  | none =>
    if ses.bindable ∧ Matched ses.objs db.deliveries then
      let m := db.message? messageId
      some ((ses.autoflush now).hold collected m, m)
    else none

/-- The body of the `for` loop up to `client.post`, once the message is there. -/
def handle (lib : Lib) (env : Env) (ses : Session) (d : WebhookDelivery)
    (message : Option Message) (todo : List WebhookDelivery) : Pc :=
  match message with
  | none => .next (ses.push ⟨d, { d with status := .cancelled }⟩) todo
  | some m =>
    match Webhooks.prepare lib env d m with
    | .error _ => .idle
    | .ok (.cancelled d') => .next (ses.push ⟨d, d'⟩) todo
    | .ok (.post d' request) => .ready ses ⟨d, d'⟩ request todo

/-- The rest of `deliver` once the `POST` is over. -/
def afterPost (ses : Session) (o : Tracked WebhookDelivery) (reply : HttpReply) (now : Time)
    (todo : List WebhookDelivery) : Pc :=
  match Webhooks.conclude o.current reply now with
  | .error _ => .idle
  | .ok c => .next (ses.conclude o.loaded c) todo

/-- One step of the loop on the committed database. -/
def step (lib : Lib) (env : Env) (db : Store) : Pc → Act → Option (Store × Pc)
  | .idle, .select now ids =>
    (ids.mapM fun id => db.deliveries.find? fun d => d.id = id).bind fun batch =>
      if IsBatch db now batch then
        some (db, if batch.isEmpty then .idle else .next .fresh batch)
      else none
  | .next ses (d :: todo), .get collected now =>
    match getMessage db ses collected now d.messageId with
    | none => some (db, .idle)
    | some (ses', message) => some (db, handle lib env ses' d message todo)
  | .ready ses o request todo, .post id =>
    if id = o.loaded.id then some (db, .posting ses o request todo) else none
  | .posting ses o _ todo, .posted id reply now =>
    if id = o.loaded.id then some (db, afterPost ses o reply now todo) else none
  | .next ses [], .commit now =>
    if ses.bindable then (db.updateDeliveries now ses.objs).map fun db' => (db', .idle) else none
  | .idle, .dbError => some (db, .idle)
  | .next _ _, .dbError => some (db, .idle)
  | _, _ => none

end FanoutLoop

end SmsRelay
