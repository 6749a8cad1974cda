import SmsRelay.Native.Db
import SmsRelay.Native.Providers

/-!
# The status loop and the prune loop

`status_loop` of `sms_relay/worker.py` as a step function between its awaits, and the
one statement of `prune_loop`.
-/

namespace SmsRelay

open UnitOfWork

namespace StatusLoop

/-- The `WHERE` of the poll: sent within the last day, with a provider id. -/
def isPolled (now : Time) (m : Message) : Bool :=
  m.status = .sent && m.providerMessageId.isSome &&
    match m.sentAt with
    | none => false
    | some t => now - days 1 < t

/-- `if status and status != message.status: message.status = status` -/
def upgrade (status : Option MessageStatus) (m : Message) : Message :=
  match status with
  | some status => { m with status := status }
  | none => m

/-- Where the loop stands, with the objects of the pass's session. -/
inductive Pc where
  /-- Awaiting the `SELECT`. -/
  | idle
  /-- Awaiting `fetch_status` for `m`, with the messages already asked for and the rest. -/
  | polling (done : List (Tracked Message)) (m : Message) (rest : List Message)
  /-- Awaiting the commit. -/
  | committing (objs : List (Tracked Message))

inductive Act where
  | select (now : Time)
  | fetched (id : String) (reply : ProviderReply)
  | commit (now : Time)
  | dbError

/-- The next turn of `for message in pending`, and the `if changed` after the loop. -/
def resume (done : List (Tracked Message)) : List Message → Pc
  | m :: rest => .polling done m rest
  | [] => if ∃ o ∈ done, o.Dirty then .committing done else .idle

/-- One step of the loop on the committed database. -/
def step (cfg : Settings) (db : Store) : Pc → Act → Option (Store × Pc)
  | .idle, .select now => some (db, resume [] (db.messages.filter (isPolled now)))
  | .polling done m rest, .fetched id reply =>
    if id = m.id then
      (providerFetchStatus cfg.provider reply).map fun
        | .ok status => (db, resume (done ++ [(Tracked.load m).assign (upgrade status)]) rest)
        -- the exception leaves the pass before its commit
        | .error _ => (db, .idle)
    else none
  | .committing objs, .commit now => (db.updateMessages now objs).map fun db' => (db', .idle)
  | .idle, .dbError => some (db, .idle)
  | .committing _, .dbError => some (db, .idle)
  | _, _ => none

end StatusLoop

/-- The `WHERE` of `prune_loop`. -/
def isPrunable (cfg : Settings) (now : Time) (m : Message) : Bool :=
  m.status ∈ terminalStatuses && m.createdAt < now - days cfg.retentionDays

/-- `prune_loop`'s `DELETE` and commit: one statement, so one step. -/
def prune (cfg : Settings) (now : Time) (db : Store) : Store :=
  db.deleteMessages (isPrunable cfg now)

end SmsRelay
