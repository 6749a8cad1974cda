import SmsRelay.ForStd.Calendar
import SmsRelay.Native.FanoutLoop
import SmsRelay.Native.SendLoop
import SmsRelay.Native.StatusLoop

/-!
# Timestamps in the database

SQLite has no type for a `datetime`.  A `DateTime` column holds the text of its fields, a
bound value of a statement is such a text as well, and the `WHERE` and `ORDER BY` clauses
compare texts.  `Sql` has the clauses of the relay's statements as SQLite evaluates them.
-/

namespace SmsRelay

/-- The microseconds of a time since the beginning of year 1. -/
def ordinal (t : Time) : Nat := (t + days 719162).toNat

/-- The time is one a `datetime` can hold, from `datetime.min` to `datetime.max`. -/
def Dated (t : Time) : Prop :=
  0 ≤ t + days 719162 ∧ ordinal t < Calendar.dayCount * 86400 * 1000000

/-- The text of a `DateTime` value: `YYYY-MM-DD HH:MM:SS.ffffff`. -/
def storedText (t : Time) : List Char := Calendar.microText (ordinal t)

/-- The value that is read from a `DateTime` column. -/
def loadedTime (text : List Char) : Time := (Calendar.readMicro text : Int) - days 719162

/-- `datetime(t)` in SQL: `YYYY-MM-DD HH:MM:SS`. -/
def datetimeText (t : Time) : List Char := Calendar.secondText (ordinal t / 1000000)

namespace Sql

/-- `next_attempt_at IS NULL OR next_attempt_at <= now` -/
def isReady (now : Time) : Option Time → Bool
  | none => true
  | some t => ¬ storedText now < storedText t

/-- The `WHERE` of `_requeue_stuck`. -/
def isStuck (cfg : Settings) (now : Time) (m : Message) : Bool :=
  m.status = .sending && storedText m.updatedAt < storedText (now - seconds cfg.stuckAfterSeconds)

/-- The `WHERE` of `_claim_next`. -/
def isDue (now : Time) (m : Message) : Bool :=
  m.direction = .outbound && m.status = .queued && isReady now m.nextAttemptAt

/-- The `WHERE` of `status_loop`. -/
def isPolled (now : Time) (m : Message) : Bool :=
  m.status = .sent && m.providerMessageId.isSome &&
    match m.sentAt with
    | none => false
    | some t => storedText (now - days 1) < storedText t

/-- The `WHERE` of `fanout_loop`. -/
def isDueDelivery (now : Time) (d : WebhookDelivery) : Bool :=
  d.status = .pending && isReady now d.nextAttemptAt

/-- The `WHERE` of `prune_loop`. -/
def isPrunable (cfg : Settings) (now : Time) (m : Message) : Bool :=
  m.status ∈ terminalStatuses && storedText m.createdAt < storedText (now - days cfg.retentionDays)

/-- What `ORDER BY created_at` compares. -/
def comesBefore (createdAt createdAt' : Time) : Bool := storedText createdAt < storedText createdAt'

end Sql

end SmsRelay
