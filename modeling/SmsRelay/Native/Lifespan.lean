import SmsRelay.Native.RateLimiter
import SmsRelay.Native.System

/-!
# The life of the process

`lifespan` of `sms_relay/main.py`: it starts the background tasks, and at shutdown it sets
`stop`, gives the tasks ten seconds and cancels those that are left.  Each task is the loop
of `Sys`, seen together with its `while not stop.is_set()`; the send loop also passes the
`RateLimiter` it has made at its start, which lives as long as the process does.

What the server does is assumed: `Process.LetsIn` and `Process.Drained` say when it hands a
request on, and when it goes on with the `finally` of `lifespan`.
-/

namespace SmsRelay

namespace Lifespan

/-- The tasks that `lifespan` creates. -/
inductive Loop where
  | send
  | status
  | fanout
  | prune
  deriving DecidableEq, Repr

/-- `tasks` -/
def loops : List Loop := [.send, .status, .fanout, .prune]

/-- Where a task stands. -/
inductive Task where
  /-- In front of a check of `stop`, or in `_sleep_or_stop` before one. -/
  | waiting
  /-- Past the check, in the body of the loop. -/
  | running
  /-- The task is over. -/
  | ended
  deriving DecidableEq, Repr

inductive Phase where
  /-- There is no process. -/
  | down
  /-- `lifespan` has yielded. -/
  | serving
  /-- `stop` is set. -/
  | stopping
  deriving DecidableEq, Repr

/-- The relay with what its process keeps in memory. -/
structure Process where
  sys : Sys
  phase : Phase
  tasks : Loop → Task
  /-- The calls in flight, of `send_message` on the left and of the inbound webhook on the
      right. -/
  requests : List (Nat ⊕ Nat)
  /-- The `limiter` of `send_loop`. -/
  limiter : RateLimiter
  /-- The last reading of the clock of the event loop. -/
  clock : ℚ

inductive Label where
  /-- A process is started. -/
  | start (now : ℚ)
  /-- A loop finds `stop` not set and goes on. -/
  | enter (loop : Loop)
  /-- A loop or a call moves, anywhere but in `limiter.acquire()`. -/
  | act (a : Action)
  /-- A turn of the loop in `limiter.acquire()`; once it is let through, `provider.send` is
      called without another await. -/
  | acquire (id : String) (now : ℚ) (turn : RateLimiter.Turn)
  /-- `stop.set()` -/
  | stop
  /-- A loop finds `stop` set and returns. -/
  | leave (loop : Loop)
  /-- The ten seconds are over: `task.cancel()` for the tasks that are left. -/
  | cancel
  /-- All tasks are over, and `lifespan` ends. -/
  | exit
  /-- The process dies. -/
  | crash

/-- Every task is over. -/
def Process.Finished (p : Process) : Prop := ∀ loop ∈ loops, p.tasks loop = .ended

instance (p : Process) : Decidable p.Finished :=
  inferInstanceAs (Decidable (∀ loop ∈ loops, _))

/-- A call is in flight. -/
def busy (s : Sys) : Nat ⊕ Nat → Bool
  | .inl call =>
    match s.sendMessages call with
    | .idle => false
    | .done _ _ _ => false
    | _ => true
  | .inr call =>
    match s.inbounds call with
    | .idle => false
    | .done _ => false
    | _ => true

/-- The calls in flight after a step of `call`. -/
def track (s : Sys) (call : Nat ⊕ Nat) (requests : List (Nat ⊕ Nat)) : List (Nat ⊕ Nat) :=
  if busy s call then call :: requests else requests.filter fun c => c ≠ call

/-- An iteration of the loop is over. -/
def isOver (s : Sys) : Loop → Bool
  | .send =>
    match s.send with
    | .idle => true
    | _ => false
  | .status =>
    match s.status with
    | .idle => true
    | _ => false
  | .fanout =>
    match s.fanout with
    | .idle => true
    | _ => false
  | .prune => true

/-- The tasks after a step in the body of `loop`. -/
def after (s : Sys) (loop : Loop) (tasks : Loop → Task) : Loop → Task :=
  Function.update tasks loop (if isOver s loop then .waiting else .running)

/-- **Assumed of the server**: it hands requests on, and waits for them, only while `lifespan`
    has yielded and has not been told to shut down. -/
abbrev Process.LetsIn (p : Process) : Prop := p.phase = .serving

/-- **Assumed of the server**: it lets `lifespan` shut down once no request is in flight. -/
abbrev Process.Drained (p : Process) : Prop := p.requests = []

variable (lib : Lib) (cfg : Settings) (perMinute : Int)

/-- A loop or a call moves: a loop only while its task is in the loop's body, a call only
    while requests are let in. -/
def act (p : Process) (a : Action) : Option Process :=
  match a with
  | .send (.providerSend _) => none
  | .send a =>
    if p.tasks .send = .running then
      (step lib cfg p.sys (.send a)).map fun sys =>
        { p with sys := sys, tasks := after sys .send p.tasks }
    else none
  | .status a =>
    if p.tasks .status = .running then
      (step lib cfg p.sys (.status a)).map fun sys =>
        { p with sys := sys, tasks := after sys .status p.tasks }
    else none
  | .fanout a =>
    if p.tasks .fanout = .running then
      (step lib cfg p.sys (.fanout a)).map fun sys =>
        { p with sys := sys, tasks := after sys .fanout p.tasks }
    else none
  | .prune now =>
    if p.tasks .prune = .running then
      (step lib cfg p.sys (.prune now)).map fun sys =>
        { p with sys := sys, tasks := after sys .prune p.tasks }
    else none
  | .sendMessage call a =>
    if p.LetsIn then
      (step lib cfg p.sys (.sendMessage call a)).map fun sys =>
        { p with sys := sys, requests := track sys (.inl call) p.requests }
    else none
  | .inbound call a =>
    if p.LetsIn then
      (step lib cfg p.sys (.inbound call a)).map fun sys =>
        { p with sys := sys, requests := track sys (.inr call) p.requests }
    else none
  | .configure env => (step lib cfg p.sys (.configure env)).map fun sys => { p with sys := sys }
  | .crash => none

/-- The loops without their tasks: what they had in hand is rolled back. -/
def cancelLoops (s : Sys) : Sys := { s with send := .idle, status := .idle, fanout := .idle }

/-- One step of the process. -/
def step (p : Process) : Label → Option Process
  | .start now =>
    if p.phase = .down ∧ p.clock ≤ now then
      some { p with
        phase := .serving
        tasks := fun _ => .waiting
        limiter := .new perMinute
        clock := now }
    else none
  | .enter loop =>
    if p.phase = .serving ∧ p.tasks loop = .waiting then
      some { p with tasks := Function.update p.tasks loop .running }
    else none
  | .act a => act lib cfg p a
  | .acquire id now turn =>
    if p.tasks .send = .running ∧ p.clock ≤ now ∧ (p.limiter.turn now).2 = turn then
      match p.sys.send with
      | .limiting m =>
        if m.id = id then
          let p' : Process := { p with limiter := (p.limiter.turn now).1, clock := now }
          match turn with
          | .granted =>
            (SmsRelay.step lib cfg p.sys (.send (.providerSend id))).map fun sys =>
              { p' with sys := sys }
          | .sleep _ => some p'
          -- a limiter lets one call through at least, so its deque is not empty here
          | .indexError => none
        else none
      | _ => none
    else none
  | .stop =>
    if p.phase = .serving ∧ p.Drained then some { p with phase := .stopping } else none
  | .leave loop =>
    if p.phase = .stopping ∧ p.tasks loop = .waiting then
      some { p with tasks := Function.update p.tasks loop .ended }
    else none
  | .cancel =>
    if p.phase = .stopping ∧ ¬ p.Finished then
      some { p with sys := cancelLoops p.sys, tasks := fun _ => .ended }
    else none
  | .exit =>
    if p.phase = .stopping ∧ p.Finished then some { p with phase := .down } else none
  | .crash =>
    if p.phase ≠ .down then
      (SmsRelay.step lib cfg p.sys .crash).map fun sys =>
        { p with sys := sys, phase := .down, tasks := fun _ => .ended, requests := [] }
    else none

/-- Before the first start. -/
def init (env : Env) (clock : ℚ) : Process where
  sys := Sys.init env
  phase := .down
  tasks := fun _ => .ended
  requests := []
  limiter := .new perMinute
  clock := clock

/-- The runs of the relay, over any number of processes one after the other. -/
abbrev Run (p : Process) (tr : List Label) (q : Process) : Prop :=
  Transition.Run (Transition.StepOf (step lib cfg perMinute)) p tr q

end Lifespan

end SmsRelay
