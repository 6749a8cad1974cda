import SmsRelay.ForStd.Run
import SmsRelay.Native.SendLoop
import SmsRelay.Native.StatusLoop
import SmsRelay.Native.FanoutLoop
import SmsRelay.Native.Routes.Messages
import SmsRelay.Native.Routes.Inbound

/-!
# The whole relay

One process: the committed database, the four background loops and any number of API
calls in flight.  A label names the party that moves and says what its await came to,
so a list of labels is both a schedule and the record of everything the relay did to
the outside world.
-/

namespace SmsRelay

/-- The state of the relay. -/
structure Sys where
  db : Store
  env : Env
  /-- Every `uuid4` drawn so far. -/
  used : List String
  send : SendLoop.Pc
  status : StatusLoop.Pc
  fanout : FanoutLoop.Pc
  sendMessages : Nat → SendMessage.Pc
  inbounds : Nat → Inbound.Pc

inductive Action where
  | send (a : SendLoop.Act)
  | status (a : StatusLoop.Act)
  | fanout (a : FanoutLoop.Act)
  | prune (now : Time)
  /-- Call number `call` of `send_message`, or of `grafana`, moves. -/
  | sendMessage (call : Nat) (a : SendMessage.Act)
  /-- Call number `call` of `android_gateway_inbound` moves. -/
  | inbound (call : Nat) (a : Inbound.Act)
  /-- The environment variables read at every use change. -/
  | configure (env : Env)
  /-- The process dies and is started again. -/
  | crash

namespace Sys

/-- A new deployment: an empty database and nothing in flight. -/
def init (env : Env) : Sys where
  db := .empty
  env := env
  used := []
  send := .idle
  status := .idle
  fanout := .idle
  sendMessages := fun _ => .idle
  inbounds := fun _ => .idle

end Sys

/-- The ids a label draws from `uuid4`. -/
def Action.uuids : Action → List String
  | .sendMessage _ (.create uuids _) => uuids
  | .inbound _ (.flush uuid _) => [uuid]
  | .inbound _ (.enqueue uuids _) => uuids
  | _ => []

/-- A call that a crash cuts off leaves no answer. -/
def SendMessage.Pc.crashed : SendMessage.Pc → SendMessage.Pc
  | .done service request answer => .done service request answer
  | _ => .idle

/-- A call that a crash cuts off leaves no answer. -/
def Inbound.Pc.crashed : Inbound.Pc → Inbound.Pc
  | .done answer => .done answer
  | _ => .idle

/-- The effect of a label, `none` when it cannot happen in this state. -/
def act (lib : Lib) (cfg : Settings) (s : Sys) : Action → Option Sys
  | .send a =>
    (SendLoop.step lib cfg s.db s.send a).map fun p => { s with db := p.1, send := p.2 }
  | .status a =>
    (StatusLoop.step cfg s.db s.status a).map fun p => { s with db := p.1, status := p.2 }
  | .fanout a =>
    (FanoutLoop.step lib s.env s.db s.fanout a).map fun p => { s with db := p.1, fanout := p.2 }
  | .prune now => some { s with db := prune cfg now s.db }
  | .sendMessage call a =>
    (SendMessage.step lib cfg s.env s.db (s.sendMessages call) a).map fun p =>
      { s with db := p.1, sendMessages := Function.update s.sendMessages call p.2 }
  | .inbound call a =>
    (Inbound.step lib cfg s.env s.db (s.inbounds call) a).map fun p =>
      { s with db := p.1, inbounds := Function.update s.inbounds call p.2 }
  | .configure env => some { s with env := env }
  | .crash =>
    some { s with
      send := .idle
      status := .idle
      fanout := .idle
      sendMessages := fun call => (s.sendMessages call).crashed
      inbounds := fun call => (s.inbounds call).crashed }

/-- `uuid4` never repeats itself. -/
def Fresh (s : Sys) (a : Action) : Prop := a.uuids.Nodup ∧ ∀ id ∈ a.uuids, id ∉ s.used

instance (s : Sys) (a : Action) : Decidable (Fresh s a) := inferInstanceAs (Decidable (_ ∧ _))

/-- One step of the relay. -/
def step (lib : Lib) (cfg : Settings) (s : Sys) (a : Action) : Option Sys :=
  if Fresh s a then (act lib cfg s a).map fun t => { t with used := a.uuids ++ s.used }
  else none

/-- The transition system of the relay. -/
abbrev Step (lib : Lib) (cfg : Settings) : Sys → Action → Sys → Prop :=
  Transition.StepOf (step lib cfg)

/-- The runs of the relay. -/
abbrev Run (lib : Lib) (cfg : Settings) : Sys → List Action → Sys → Prop :=
  Transition.Run (Step lib cfg)

end SmsRelay
