import Mathlib.Algebra.Order.Field.Rat
import SmsRelay.ForStd.Run

/-!
# The rate limiter

`RateLimiter` of `sms_relay/worker.py`.  `acquire` awaits nothing but its own sleep, so
what one turn of its outer loop does, from the reading of the clock to the `return` or to
the sleep, is one step; between two turns of one caller any other caller may take turns.
The clock of the event loop is read as an exact rational number of seconds, without the
rounding of `now - self._sent[0]` in binary64.
-/

namespace SmsRelay

structure RateLimiter where
  perMinute : Int
  /-- The times of the calls let through, the oldest first. -/
  sent : List ℚ
  deriving DecidableEq

namespace RateLimiter

/-- `RateLimiter(per_minute)` -/
def new (perMinute : Int) : RateLimiter := ⟨max 1 perMinute, []⟩

/-- `while self._sent and now - self._sent[0] >= 60: self._sent.popleft()` -/
def popOld (now : ℚ) : List ℚ → List ℚ
  | [] => []
  | t :: sent => if 60 ≤ now - t then popOld now sent else t :: sent

/-- How a turn of the loop in `acquire` ends. -/
inductive Turn where
  | granted
  | sleep (seconds : ℚ)
  /-- `self._sent[0]` of an empty deque. -/
  | indexError
  deriving DecidableEq

/-- One turn of the loop in `acquire`. -/
def turn (limiter : RateLimiter) (now : ℚ) : RateLimiter × Turn :=
  let sent := popOld now limiter.sent
  if (sent.length : Int) < limiter.perMinute then
    ({ limiter with sent := sent ++ [now] }, .granted)
  else
    ({ limiter with sent := sent },
      match sent with
      | t :: _ => .sleep (max (1 / 10) (60 - (now - t)))
      | [] => .indexError)

/-! ## Callers -/

/-- Where a caller of `acquire` stands. -/
inductive Caller where
  /-- Not in `acquire`. -/
  | idle
  /-- Asleep since a reading of the clock, for so many seconds. -/
  | asleep (since seconds : ℚ)
  | raised
  deriving DecidableEq

/-- A limiter with its callers. -/
structure Shared where
  limiter : RateLimiter
  /-- The last reading of the clock. -/
  clock : ℚ
  callers : Nat → Caller

/-- A turn of one caller: it calls `acquire`, or wakes up in it. -/
structure Act where
  caller : Nat
  now : ℚ
  turn : Turn
  deriving DecidableEq

/-- A new limiter. -/
def Shared.new (perMinute : Int) (clock : ℚ) : Shared :=
  ⟨.new perMinute, clock, fun _ => .idle⟩

/-- What a turn leaves of its caller. -/
def Turn.caller (now : ℚ) : Turn → Caller
  | .granted => .idle
  | .sleep seconds => .asleep now seconds
  | .indexError => .raised

/-- One turn of one caller, `none` when it cannot happen.  A caller may wake up at any
    time, also before its sleep is over. -/
def step (s : Shared) (a : Act) : Option Shared :=
  if s.clock ≤ a.now ∧ s.callers a.caller ≠ .raised ∧ (s.limiter.turn a.now).2 = a.turn then
    some
      { limiter := (s.limiter.turn a.now).1
        clock := a.now
        callers := Function.update s.callers a.caller (a.turn.caller a.now) }
  else none

/-- The times at which calls were let through. -/
def grants (tr : List Act) : List ℚ :=
  tr.filterMap fun a => if a.turn = .granted then some a.now else none

/-- Any number of callers taking turns. -/
abbrev Run (perMinute : Int) (clock : ℚ) : List Act → Shared → Prop :=
  Transition.Run (Transition.StepOf step) (Shared.new perMinute clock)

end RateLimiter

end SmsRelay
