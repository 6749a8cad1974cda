import Mathlib.Order.Defs.LinearOrder
import SmsRelay.Native.Timestamps

/-!
# The monitoring port

`collect` of `sms_relay/metrics.py`.  The three statements run one after another, each in a
transaction of its own, so each has the database and the clock as they are by then.  SQLite
computes an age in floating-point days: `age` stands for that, as a function of the clock and of
the text in the column, and `repr` for the text of a `float`.
-/

namespace SmsRelay

namespace Metrics

/-- What a statement sees. -/
structure Reading where
  db : Store
  now : Time

/-- `direction='outbound' AND status IN ('queued','sending')` -/
def isPending (m : Message) : Bool :=
  m.direction = .outbound && (m.status = .queued || m.status = .sending)

/-- `t >= datetime('now','-1 hour')` -/
def isRecent (now t : Time) : Bool := ¬ storedText t < datetimeText (now - seconds 3600)

section
variable {ρ : Type} [LinearOrder ρ] [Zero ρ]

/-- `SELECT coalesce(max((julianday('now')-julianday(created_at))*86400),0)` -/
def oldestPending (age : Time → List Char → ρ) (r : Reading) : ρ :=
  ((r.db.messages.filter isPending).map fun m => age r.now (storedText m.createdAt)).max?.getD 0

/-- The outbound messages that failed within the last hour. -/
def failedLastHour (r : Reading) : List Message :=
  r.db.messages.filter fun m =>
    m.direction = .outbound && m.status = .failed && isRecent r.now m.updatedAt

/-- The messages of the last hour that fell back to SMS. -/
def fallbackLastHour (r : Reading) : List Message :=
  r.db.messages.filter fun m => m.transport = .smsFallback && isRecent r.now m.createdAt

/-- `collect` -/
def collect (age : Time → List Char → ρ) (repr : ρ → String) (pending failed fallback : Reading) :
    String :=
  "home_relay_oldest_pending_seconds " ++ repr (max 0 (oldestPending age pending)) ++
    "\nhome_relay_failed_last_hour " ++ toString (failedLastHour failed).length ++
    "\nhome_relay_fallback_last_hour " ++ toString (fallbackLastHour fallback).length ++ "\n"

end

end Metrics

end SmsRelay
