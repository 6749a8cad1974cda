import Mathlib.Algebra.Group.Int.Defs
import SmsRelay.Native.Db
import SmsRelay.Native.Notifications

/-!
# The send loop

`send_loop` of `sms_relay/worker.py` with `_requeue_stuck` and `_claim_next`, as a step
function between its awaits.  A label says what the awaited operation came to: `commit`
is a commit that returned, `dbError` a database operation that raised, and the replies
carry what the network gave.  Between two labels of this loop any other party may take
steps.  Code between two awaits takes no time: it sees one clock reading.

The wait of `limiter.acquire()` is the time that passes in `limiting`.
-/

namespace SmsRelay

open UnitOfWork

namespace SendLoop

/-- `backoff_seconds`: 30s, 1m, 2m, 4m, 8m, capped at 15 minutes. -/
def backoffSeconds (attempts : Nat) : Int := min (30 * 2 ^ (attempts - 1)) 900

/-- `send_backoff`. -/
def sendBackoff (now : Time) (attempts : Nat) : Time := now + seconds (backoffSeconds attempts)

/-! ## Queries and assignments of the loop -/

/-- The `WHERE` of `_requeue_stuck`.  The subtraction is one of integers here: settings for which
    `now - timedelta(...)` is no `datetime`, and raises, are left out. -/
def isStuck (cfg : Settings) (now : Time) (m : Message) : Bool :=
  m.status = .sending && m.updatedAt < now - seconds cfg.stuckAfterSeconds

/-- The `WHERE` of `_claim_next`. -/
def isDue (now : Time) (m : Message) : Bool :=
  m.direction = .outbound && m.status = .queued &&
    match m.nextAttemptAt with
    | none => true
    | some t => t ≤ now

/-- `ORDER BY created_at LIMIT 1`: SQL leaves open which of several rows with one
    `created_at` comes first. -/
def IsOldestDue (db : Store) (now : Time) (m : Message) : Prop :=
  isDue now m ∧ ∀ m' ∈ db.messages, isDue now m' → m.createdAt ≤ m'.createdAt

instance (db : Store) (now : Time) (m : Message) : Decidable (IsOldestDue db now m) :=
  inferInstanceAs (Decidable (_ ∧ _))

/-- A stuck row goes back to the queue. -/
def requeue (now : Time) (m : Message) : Message :=
  { m with status := .queued, nextAttemptAt := some now }

/-- `_claim_next` takes a row. -/
def claim (now : Time) (m : Message) : Message :=
  { m with status := .sending, updatedAt := now }

/-- ntfy did not take the message: the fallback decision. -/
def fallBack (m : Message) : Message :=
  { m with
    transport := .smsFallback
    error := some "ntfy publish failed; SMS fallback selected" }

/-- ntfy acknowledged the message. -/
def markPublished (receipt : String) (now : Time) (m : Message) : Message :=
  { m with
    status := .published
    providerMessageId := some ("ntfy:" ++ receipt)
    sentAt := some now
    error := none }

/-- The `except ProviderError` branch, for the text of the error. -/
def recordFailure (cfg : Settings) (error : String) (permanent : Bool) (now : Time)
    (m : Message) : Message :=
  let attempts := m.attempts + 1
  if permanent ∨ cfg.maxAttempts ≤ attempts then
    { m with attempts := attempts, error := some error, status := .failed }
  else
    { m with
      attempts := attempts
      error := some error
      status := .queued
      nextAttemptAt := some (sendBackoff now attempts) }

/-- The provider took the message. -/
def markSent (providerMessageId : Option String) (now : Time) (m : Message) : Message :=
  { m with
    attempts := m.attempts + 1
    status := .sent
    providerMessageId := providerMessageId
    sentAt := some now
    error := none }

/-! ## Program points -/

/-- Where the loop stands, with the objects of the iteration's session. -/
inductive Pc where
  /-- Awaiting the `SELECT` of `_requeue_stuck`. -/
  | idle
  /-- Awaiting the commit of the requeued rows. -/
  | requeueing (objs : List (Tracked Message))
  /-- Awaiting the `SELECT` of `_claim_next`. -/
  | claiming
  /-- Awaiting the commit of the claim. -/
  | claimed (o : Tracked Message)
  /-- About to call `publish`. -/
  | toPublish (m : Message)
  /-- Awaiting `publish`. -/
  | publishing (m : Message)
  /-- Awaiting the commit of an acknowledged publication. -/
  | acknowledged (o : Tracked Message)
  /-- Awaiting the commit of the fallback decision. -/
  | fellBack (o : Tracked Message)
  /-- Awaiting `limiter.acquire()`. -/
  | limiting (m : Message)
  /-- Awaiting `provider.send`. -/
  | sending (m : Message)
  /-- Awaiting the commit of the outcome. -/
  | finishing (o : Tracked Message)
  /-- Awaiting a commit that will raise: sqlite3 cannot bind the gateway's or ntfy's `id`, or
      the text of the error. -/
  | unbindable (m : Message)

inductive Act where
  | requeueSelect (now stamp : Time)
  | claimSelect (now : Time) (id : Option String)
  | publish (id : String)
  | publishReply (id : String) (reply : HttpReply) (now : Time)
  | providerSend (id : String)
  | providerReply (id : String) (reply : ProviderReply) (now : Time)
  | commit (now : Time)
  | dbError

/-- A database operation is awaited. -/
def Pc.awaitsDb : Pc → Bool
  | .toPublish _ => false
  | .publishing _ => false
  | .limiting _ => false
  | .sending _ => false
  | _ => true

/-- The branch on the transport after the claim was committed. -/
def afterClaim (m : Message) : Pc :=
  if m.transport = .ntfy then .toPublish m else .limiting m

/-- The `try` around `publish`: an exception it does not name ends the iteration. -/
def afterPublish (m : Message) (reply : HttpReply) (now : Time) : Pc :=
  match SmsRelay.publish reply with
  | .ok receipt =>
    match receipt.encode with
    | some receipt => .acknowledged ((Tracked.load m).assign (markPublished receipt now))
    | none => .unbindable m
  | .error e => if e.fallsBack then .fellBack ((Tracked.load m).assign fallBack) else .idle

/-- The `try` around `provider.send`: only `ProviderError` is caught there, everything
    else ends the iteration without a commit. -/
def afterSend (lib : Lib) (cfg : Settings) (m : Message) (now : Time) :
    Except PyError SendResult → Pc
  | .ok result =>
    match lib.bindText result.providerMessageId with
    | some pid => .finishing ((Tracked.load m).assign (markSent pid now))
    | none => .unbindable m
  | .error (.providerError message permanent) =>
    match (message.sliceTo 500).encode with
    | some error => .finishing ((Tracked.load m).assign (recordFailure cfg error permanent now))
    | none => .unbindable m
  | .error _ => .idle

/-- One step of the loop on the committed database. -/
def step (lib : Lib) (cfg : Settings) (db : Store) : Pc → Act → Option (Store × Pc)
  | .idle, .requeueSelect now stamp =>
    let rows := db.messages.filter (isStuck cfg now)
    some (db, if rows.isEmpty then .claiming
      else .requeueing (rows.map fun m => (Tracked.load m).assign (requeue stamp)))
  | .requeueing objs, .commit now => (db.updateMessages now objs).map fun db' => (db', .claiming)
  | .claiming, .claimSelect now none =>
    if ∀ m ∈ db.messages, ¬ isDue now m then some (db, .idle) else none
  | .claiming, .claimSelect now (some id) =>
    (db.message? id).bind fun m =>
      if IsOldestDue db now m then some (db, .claimed ((Tracked.load m).assign (claim now)))
      else none
  | .claimed o, .commit now =>
    (db.updateMessages now [o]).map fun db' => (db', afterClaim (o.saved now))
  | .toPublish m, .publish id => if id = m.id then some (db, .publishing m) else none
  | .publishing m, .publishReply id reply now =>
    if id = m.id then some (db, afterPublish m reply now) else none
  | .acknowledged o, .commit now => (db.updateMessages now [o]).map fun db' => (db', .idle)
  | .fellBack o, .commit now =>
    (db.updateMessages now [o]).map fun db' => (db', .limiting (o.saved now))
  | .limiting m, .providerSend id => if id = m.id then some (db, .sending m) else none
  | .sending m, .providerReply id reply now =>
    if id = m.id then
      (SmsRelay.providerSend cfg.provider reply).map fun result =>
        (db, afterSend lib cfg m now result)
    else none
  | .finishing o, .commit now => (db.updateMessages now [o]).map fun db' => (db', .idle)
  | pc, .dbError => if pc.awaitsDb then some (db, .idle) else none
  | _, _ => none

end SendLoop

end SmsRelay
