import SmsRelay.Native.Lifespan
import SmsRelay.Spec.Invariant

/-!
# The process refines the relay

A process is the relay with something around it: tasks that come and go, a limiter, and a
shutdown.  It takes no step that the relay cannot take, so what holds along all runs of the
relay holds along all runs of the process.

## Key results

- `trans_of_step`: what each step of the process can do
- `processInv_reachable`: a task outside the body of its loop has nothing in hand
- `run_projects`: a run of the process is a run of the relay
-/

namespace SmsRelay.Lifespan

open Transition

/-! ## What a step of the process does -/

theorem mem_loops (loop : Loop) : loop ∈ loops := by
  cases loop <;> decide

/-- The transitions of the process. -/
inductive Trans (lib : Lib) (cfg : Settings) (perMinute : Int) (p : Process) :
    Label → Process → Prop
  | start {now : ℚ} : p.phase = .down → p.clock ≤ now →
      Trans lib cfg perMinute p (.start now)
        { p with
          phase := .serving
          tasks := fun _ => .waiting
          limiter := .new perMinute
          clock := now }
  | enter {loop : Loop} : p.phase = .serving → p.tasks loop = .waiting →
      Trans lib cfg perMinute p (.enter loop)
        { p with tasks := Function.update p.tasks loop .running }
  | send {a : SendLoop.Act} {sys : Sys} : p.tasks .send = .running →
      (∀ id, a ≠ .providerSend id) → Step lib cfg p.sys (.send a) sys →
      Trans lib cfg perMinute p (.act (.send a))
        { p with sys := sys, tasks := after sys .send p.tasks }
  | status {a : StatusLoop.Act} {sys : Sys} : p.tasks .status = .running →
      Step lib cfg p.sys (.status a) sys →
      Trans lib cfg perMinute p (.act (.status a))
        { p with sys := sys, tasks := after sys .status p.tasks }
  | fanout {a : FanoutLoop.Act} {sys : Sys} : p.tasks .fanout = .running →
      Step lib cfg p.sys (.fanout a) sys →
      Trans lib cfg perMinute p (.act (.fanout a))
        { p with sys := sys, tasks := after sys .fanout p.tasks }
  | prune {now : Time} {sys : Sys} : p.tasks .prune = .running →
      Step lib cfg p.sys (.prune now) sys →
      Trans lib cfg perMinute p (.act (.prune now))
        { p with sys := sys, tasks := after sys .prune p.tasks }
  | sendMessage {call : Nat} {a : SendMessage.Act} {sys : Sys} : p.phase = .serving →
      Step lib cfg p.sys (.sendMessage call a) sys →
      Trans lib cfg perMinute p (.act (.sendMessage call a))
        { p with sys := sys, requests := track sys (.inl call) p.requests }
  | inbound {call : Nat} {a : Inbound.Act} {sys : Sys} : p.phase = .serving →
      Step lib cfg p.sys (.inbound call a) sys →
      Trans lib cfg perMinute p (.act (.inbound call a))
        { p with sys := sys, requests := track sys (.inr call) p.requests }
  | configure {env : Env} {sys : Sys} : Step lib cfg p.sys (.configure env) sys →
      Trans lib cfg perMinute p (.act (.configure env)) { p with sys := sys }
  | granted {m : Message} {now : ℚ} {sys : Sys} : p.tasks .send = .running → p.clock ≤ now →
      p.sys.send = .limiting m → (p.limiter.turn now).2 = .granted →
      Step lib cfg p.sys (.send (.providerSend m.id)) sys →
      Trans lib cfg perMinute p (.acquire m.id now .granted)
        { p with sys := sys, limiter := (p.limiter.turn now).1, clock := now }
  | sleep {m : Message} {now seconds : ℚ} : p.tasks .send = .running → p.clock ≤ now →
      p.sys.send = .limiting m → (p.limiter.turn now).2 = .sleep seconds →
      Trans lib cfg perMinute p (.acquire m.id now (.sleep seconds))
        { p with limiter := (p.limiter.turn now).1, clock := now }
  | stop : p.phase = .serving → p.requests = [] →
      Trans lib cfg perMinute p .stop { p with phase := .stopping }
  | leave {loop : Loop} : p.phase = .stopping → p.tasks loop = .waiting →
      Trans lib cfg perMinute p (.leave loop)
        { p with tasks := Function.update p.tasks loop .ended }
  | cancel : p.phase = .stopping → ¬ p.Finished →
      Trans lib cfg perMinute p .cancel
        { p with sys := cancelLoops p.sys, tasks := fun _ => .ended }
  | exit : p.phase = .stopping → (∀ loop, p.tasks loop = .ended) →
      Trans lib cfg perMinute p .exit { p with phase := .down }
  | crash {sys : Sys} : p.phase ≠ .down → Step lib cfg p.sys .crash sys →
      Trans lib cfg perMinute p .crash
        { p with sys := sys, phase := .down, tasks := fun _ => .ended, requests := [] }

section
variable {lib : Lib} {cfg : Settings} {perMinute : Int} {p q : Process} {l : Label}

/-- A label of a loop or of a call is one of its transitions. -/
private theorem trans_of_act {a : Action} (h : act lib cfg p a = some q) :
    Trans lib cfg perMinute p (.act a) q := by
  cases a with
  | send a =>
    by_cases hsend : ∃ id, a = .providerSend id
    · obtain ⟨id, rfl⟩ := hsend
      cases h
    · have hne : ∀ id, a ≠ .providerSend id := fun id heq => hsend ⟨id, heq⟩
      cases a with
      | providerSend id => exact absurd rfl (hne id)
      | _ =>
        simp only [act, Option.ite_none_right_eq_some, Option.map_eq_some_iff] at h
        obtain ⟨hrunning, sys, hstep, rfl⟩ := h
        exact .send hrunning hne hstep
  | status a =>
    simp only [act, Option.ite_none_right_eq_some, Option.map_eq_some_iff] at h
    obtain ⟨hrunning, sys, hstep, rfl⟩ := h
    exact .status hrunning hstep
  | fanout a =>
    simp only [act, Option.ite_none_right_eq_some, Option.map_eq_some_iff] at h
    obtain ⟨hrunning, sys, hstep, rfl⟩ := h
    exact .fanout hrunning hstep
  | prune now =>
    simp only [act, Option.ite_none_right_eq_some, Option.map_eq_some_iff] at h
    obtain ⟨hrunning, sys, hstep, rfl⟩ := h
    exact .prune hrunning hstep
  | sendMessage call a =>
    simp only [act, Option.ite_none_right_eq_some, Option.map_eq_some_iff] at h
    obtain ⟨hserving, sys, hstep, rfl⟩ := h
    exact .sendMessage hserving hstep
  | inbound call a =>
    simp only [act, Option.ite_none_right_eq_some, Option.map_eq_some_iff] at h
    obtain ⟨hserving, sys, hstep, rfl⟩ := h
    exact .inbound hserving hstep
  | configure env =>
    simp only [act, Option.map_eq_some_iff] at h
    obtain ⟨sys, hstep, rfl⟩ := h
    exact .configure hstep
  | crash => cases h

/-- **Every step of the process is one of its transitions.** -/
theorem trans_of_step (h : step lib cfg perMinute p l = some q) :
    Trans lib cfg perMinute p l q := by
  cases l with
  | act a => exact trans_of_act h
  | start now =>
    simp only [step, Option.ite_none_right_eq_some, Option.some.injEq] at h
    obtain ⟨⟨hdown, hclock⟩, rfl⟩ := h
    exact .start hdown hclock
  | enter loop =>
    simp only [step, Option.ite_none_right_eq_some, Option.some.injEq] at h
    obtain ⟨⟨hserving, hwaiting⟩, rfl⟩ := h
    exact .enter hserving hwaiting
  | acquire id now turn =>
    simp only [step, Option.ite_none_right_eq_some] at h
    obtain ⟨⟨hrunning, hclock, hturn⟩, h⟩ := h
    split at h
    · next m hpc =>
      simp only [Option.ite_none_right_eq_some] at h
      obtain ⟨rfl, h⟩ := h
      cases turn with
      | granted =>
        obtain ⟨sys, hstep, rfl⟩ := Option.map_eq_some_iff.mp h
        exact .granted hrunning hclock hpc hturn hstep
      | sleep seconds =>
        obtain rfl := Option.some.inj h
        exact .sleep hrunning hclock hpc hturn
      | indexError => cases h
    · cases h
  | stop =>
    simp only [step, Option.ite_none_right_eq_some, Option.some.injEq] at h
    obtain ⟨⟨hserving, hquiet⟩, rfl⟩ := h
    exact .stop hserving hquiet
  | leave loop =>
    simp only [step, Option.ite_none_right_eq_some, Option.some.injEq] at h
    obtain ⟨⟨hstopping, hwaiting⟩, rfl⟩ := h
    exact .leave hstopping hwaiting
  | cancel =>
    simp only [step, Option.ite_none_right_eq_some, Option.some.injEq] at h
    obtain ⟨⟨hstopping, hleft⟩, rfl⟩ := h
    exact .cancel hstopping hleft
  | exit =>
    simp only [step, Option.ite_none_right_eq_some, Option.some.injEq] at h
    obtain ⟨⟨hstopping, hended⟩, rfl⟩ := h
    exact .exit hstopping fun loop => hended loop (mem_loops loop)
  | crash =>
    simp only [step, Option.ite_none_right_eq_some, Option.map_eq_some_iff] at h
    obtain ⟨hup, sys, hstep, rfl⟩ := h
    exact .crash hup hstep

end

/-! ## What a task has in hand -/

/-- The loop that a label of the relay moves. -/
def loopOf : Action → Option Loop
  | .send _ => some .send
  | .status _ => some .status
  | .fanout _ => some .fanout
  | .prune _ => some .prune
  | _ => none

/-- What holds of a process at every moment. -/
structure ProcessInv (p : Process) : Prop where
  idle : ∀ loop, p.tasks loop ≠ .running → isOver p.sys loop = true
  /-- The server knows of every call in flight. -/
  requests : ∀ call, busy p.sys call = true → call ∈ p.requests
  /-- Requests are let in while `lifespan` has yielded, and at no other time. -/
  served : p.phase ≠ .serving → p.requests = []
  down : p.phase = .down → ∀ loop, p.tasks loop = .ended

/-- A step of one loop leaves the other tasks where they stand. -/
theorem after_of_ne {s : Sys} {loop other : Loop} {tasks : Loop → Task} (h : other ≠ loop) :
    after s loop tasks other = tasks other := Function.update_of_ne h _ _

theorem send_of_over {s : Sys} (h : isOver s .send = true) : s.send = .idle := by
  simp only [isOver] at h
  split at h
  · next hpc => exact hpc
  · cases h

section
variable {lib : Lib} {cfg : Settings} {perMinute : Int} {p q : Process} {l : Label}

/-- A crash leaves no call in flight. -/
private theorem not_busy_of_crash {s t : Sys} (h : SmsRelay.Trans lib cfg s .crash t)
    (call : Nat ⊕ Nat) : busy t call = false := by
  cases h
  cases call with
  | inl call =>
    simp only [busy]
    cases s.sendMessages call <;> rfl
  | inr call =>
    simp only [busy]
    cases s.inbounds call <;> rfl

/-- A call that is in flight after a step of another one was so before. -/
private theorem busy_of_other {s t : Sys} {a : Action} (h : SmsRelay.Trans lib cfg s a t)
    {call call' : Nat ⊕ Nat} (hne : call ≠ call') (ha : a.caller = some call') :
    busy t call = busy s call := by
  cases h with
  | @sendMessage n =>
    obtain rfl := Option.some.inj ha
    cases call with
    | inl m =>
      have hm : m ≠ n := fun heq => hne (congrArg Sum.inl heq)
      simp only [busy, Function.update_of_ne hm]
    | inr m => rfl
  | @inbound n =>
    obtain rfl := Option.some.inj ha
    cases call with
    | inl m => rfl
    | inr m =>
      have hm : m ≠ n := fun heq => hne (congrArg Sum.inr heq)
      simp only [busy, Function.update_of_ne hm]
  | send | status | fanout | prune | configure | crash => cases ha

/-- The server's list of the calls in flight stays complete. -/
private theorem mem_track {s t : Sys} {a : Action} (h : SmsRelay.Trans lib cfg s a t)
    {call' : Nat ⊕ Nat} {requests : List (Nat ⊕ Nat)}
    (hi : ∀ call, busy s call = true → call ∈ requests) (ha : a.caller = some call') :
    ∀ call, busy t call = true → call ∈ track t call' requests := by
  intro call hbusy
  by_cases hcall : call = call'
  · subst hcall
    unfold track
    rw [if_pos hbusy]
    exact List.mem_cons_self
  · have hmem : call ∈ requests := by
      apply hi
      rw [← busy_of_other h hcall ha]
      exact hbusy
    unfold track
    split
    · exact List.mem_cons_of_mem _ hmem
    · exact List.mem_filter.mpr ⟨hmem, by simpa using hcall⟩

/-- A task of a process that is up. -/
private theorem ProcessInv.up (hi : ProcessInv p) {loop : Loop} (h : p.tasks loop ≠ .ended) :
    p.phase ≠ .down := fun hdown => h (hi.down hdown loop)

/-- A task moves on in its loop, and what the other loops have in hand is as before. -/
private theorem idle_update {s t : Sys} {tasks : Loop → Task} {loop : Loop} {task : Task}
    (hi : ∀ loop, tasks loop ≠ .running → isOver s loop = true)
    (hother : ∀ other, other ≠ loop → isOver t other = isOver s other)
    (hloop : task ≠ .running → isOver t loop = true) (other : Loop)
    (hne : Function.update tasks loop task other ≠ .running) : isOver t other = true := by
  by_cases heq : other = loop
  · subst heq
    rw [Function.update_self] at hne
    exact hloop hne
  · rw [Function.update_of_ne heq] at hne
    rw [hother other heq]
    exact hi other hne

/-- A loop moves in its body. -/
private theorem ProcessInv.loopMoves (hi : ProcessInv p) {loop : Loop} {a : Action} {sys : Sys}
    (hrunning : p.tasks loop = .running) (h : SmsRelay.Trans lib cfg p.sys a sys)
    (ha : loopOf a = some loop) :
    ProcessInv { p with sys := sys, tasks := after sys loop p.tasks } := by
  have hleft : p.tasks loop ≠ .ended := by rw [hrunning]; decide
  have hup : p.phase ≠ .down := hi.up hleft
  have hframe : (∀ other, other ≠ loop → isOver sys other = isOver p.sys other) ∧
      ∀ call, busy sys call = busy p.sys call := by
    cases h with
    | send | status | fanout | prune =>
      obtain rfl := Option.some.inj ha
      refine ⟨fun other hne => ?_, fun call => by cases call <;> rfl⟩
      cases other <;> first | rfl | exact absurd rfl hne
    | sendMessage | inbound | configure | crash => cases ha
  refine
    { idle := idle_update hi.idle hframe.1 fun hne => ?_
      requests := fun call h => hi.requests call ((hframe.2 call).symm.trans h)
      served := hi.served
      down := fun hdown => absurd hdown hup }
  by_contra hover
  exact hne (if_neg hover)

/-- A loop that awaits `provider.send` is still in its body. -/
theorem after_granted {m : Message} {sys : Sys} (hpc : p.sys.send = .limiting m)
    (h : SmsRelay.Trans lib cfg p.sys (.send (.providerSend m.id)) sys)
    (hrunning : p.tasks .send = .running) : after sys .send p.tasks = p.tasks := by
  cases h with
  | send h =>
    rw [hpc] at h
    cases h
    unfold after
    rw [if_neg (by simp [isOver]), ← hrunning, Function.update_eq_self]

/-- A call moves. -/
private theorem ProcessInv.callMoves (hi : ProcessInv p) {a : Action} {sys : Sys}
    {call : Nat ⊕ Nat} (hserving : p.phase = .serving) (h : SmsRelay.Trans lib cfg p.sys a sys)
    (ha : a.caller = some call) :
    ProcessInv { p with sys := sys, requests := track sys call p.requests } := by
  have hmem := mem_track h hi.requests ha
  have hloops : ∀ loop, isOver sys loop = isOver p.sys loop := by
    intro loop
    cases h with
    | sendMessage | inbound => cases loop <;> rfl
    | send | status | fanout | prune | configure | crash => cases ha
  exact
    { idle := fun loop hne => (hloops loop).trans (hi.idle loop hne)
      requests := hmem
      served := fun hne => absurd hserving hne
      down := fun hdown => by rw [hserving] at hdown; cases hdown }

/-- **Every step of the process keeps its invariant.** -/
theorem ProcessInv.step (hi : ProcessInv p) (h : Trans lib cfg perMinute p l q) :
    ProcessInv q := by
  cases h with
  | start hdown hclock =>
    have hended := hi.down hdown
    exact
      { idle := fun loop _ => hi.idle loop (by rw [hended]; decide)
        requests := hi.requests
        served := fun hne => absurd rfl hne
        down := fun heq => by cases heq }
  | enter hserving hwaiting =>
    exact { hi with
      idle := idle_update hi.idle (fun _ _ => rfl) fun hne => absurd rfl hne
      down := fun hdown => by rw [hserving] at hdown; cases hdown }
  | send hrunning _ hstep =>
    exact hi.loopMoves hrunning (SmsRelay.trans_of_step hstep).2 rfl
  | status hrunning hstep =>
    exact hi.loopMoves hrunning (SmsRelay.trans_of_step hstep).2 rfl
  | fanout hrunning hstep =>
    exact hi.loopMoves hrunning (SmsRelay.trans_of_step hstep).2 rfl
  | prune hrunning hstep =>
    exact hi.loopMoves hrunning (SmsRelay.trans_of_step hstep).2 rfl
  | sendMessage hserving hstep =>
    exact hi.callMoves hserving (SmsRelay.trans_of_step hstep).2 rfl
  | inbound hserving hstep =>
    exact hi.callMoves hserving (SmsRelay.trans_of_step hstep).2 rfl
  | configure hstep =>
    cases (SmsRelay.trans_of_step hstep).2
    exact
      { idle := fun loop hne => by cases loop <;> exact hi.idle _ hne
        requests := fun call h => by cases call <;> exact hi.requests _ h
        served := hi.served
        down := hi.down }
  | @granted m now sys hrunning _ hpc _ hstep =>
    have htrans := (SmsRelay.trans_of_step hstep).2
    have hmoved := hi.loopMoves hrunning htrans rfl
    rw [after_granted hpc htrans hrunning] at hmoved
    exact { hmoved with }
  | sleep => exact { hi with }
  | stop hserving hquiet =>
    exact { hi with
      served := fun _ => hquiet
      down := fun heq => by cases heq }
  | leave hstopping hwaiting =>
    exact { hi with
      idle := idle_update hi.idle (fun _ _ => rfl)
        fun _ => hi.idle _ (by rw [hwaiting]; decide)
      down := fun hdown => by rw [hstopping] at hdown; cases hdown }
  | cancel hstopping _ =>
    exact
      { idle := fun loop _ => by cases loop <;> rfl
        requests := fun call h => by cases call <;> exact hi.requests _ h
        served := hi.served
        down := fun _ _ => rfl }
  | exit hstopping hended =>
    exact { hi with
      served := fun _ => hi.served (by rw [hstopping]; decide)
      down := fun _ => hended }
  | crash hup hstep =>
    have htrans := (SmsRelay.trans_of_step hstep).2
    have hbusy := not_busy_of_crash htrans
    cases htrans
    exact
      { idle := fun loop _ => by cases loop <;> rfl
        requests := fun call h => absurd (h.symm.trans (hbusy call)) (by decide)
        served := fun _ => rfl
        down := fun _ _ => rfl }

/-- **A task outside the body of its loop has nothing in hand**, in every run. -/
theorem processInv_reachable {env : Env} {clock : ℚ} {tr : List Label}
    (hrun : Run lib cfg perMinute (init perMinute env clock) tr p) : ProcessInv p := by
  refine hrun.invariant (I := ProcessInv) ?_ ?_
  · exact fun _ _ _ hi hstep => hi.step (trans_of_step hstep)
  · exact
      { idle := fun loop _ => by cases loop <;> rfl
        requests := fun call h => by cases call <;> cases h
        served := fun _ => rfl
        down := fun _ _ => rfl }

end

/-! ## The process as a run of the relay -/

/-- What the relay does in a step of the process. -/
def Label.actions : Label → List Action
  | .act a => [a]
  | .acquire id _ .granted => [.send (.providerSend id)]
  | .cancel => [.crash]
  | .crash => [.crash]
  | _ => []

section
variable {lib : Lib} {cfg : Settings} {perMinute : Int} {p q : Process} {l : Label}

/-- When no call is in flight, a crash takes no more than a cancellation of the loops. -/
private theorem crash_cancelLoops {s : Sys} (h : ∀ call, busy s call = false) :
    Step lib cfg s .crash (cancelLoops s) := by
  have hcalls : (fun call => (s.sendMessages call).crashed) = s.sendMessages := by
    funext call
    have hidle := h (.inl call)
    simp only [busy] at hidle
    cases hpc : s.sendMessages call <;> rw [hpc] at hidle <;> first | rfl | cases hidle
  have hinbounds : (fun call => (s.inbounds call).crashed) = s.inbounds := by
    funext call
    have hidle := h (.inr call)
    simp only [busy] at hidle
    cases hpc : s.inbounds call <;> rw [hpc] at hidle <;> first | rfl | cases hidle
  show SmsRelay.step lib cfg s .crash = some (cancelLoops s)
  simp [SmsRelay.step, Fresh, SmsRelay.act, Action.uuids, cancelLoops, hcalls, hinbounds]

/-- Every step of the process is what its label says for the relay. -/
theorem Trans.project (hi : ProcessInv p) (h : Trans lib cfg perMinute p l q) :
    SmsRelay.Run lib cfg p.sys l.actions q.sys := by
  cases h with
  | send _ _ hstep | status _ hstep | fanout _ hstep | prune _ hstep | sendMessage _ hstep
  | inbound _ hstep | configure hstep | granted _ _ _ _ hstep | crash _ hstep =>
    exact .single hstep
  | cancel hstopping _ =>
    apply Transition.Run.single
    apply crash_cancelLoops
    intro call
    have hnone := hi.served (by rw [hstopping]; decide)
    by_contra hbusy
    have hmem := hi.requests call (by simpa using hbusy)
    rw [hnone] at hmem
    cases hmem
  | start | enter | sleep | stop | leave | exit => exact .nil

/-- **A run of the process is a run of the relay.** -/
theorem run_projects {env : Env} {clock : ℚ} {tr : List Label}
    (hrun : Run lib cfg perMinute (init perMinute env clock) tr p) :
    SmsRelay.Run lib cfg (Sys.init env) (tr.flatMap Label.actions) p.sys := by
  refine hrun.traceInvariant
    (P := fun tr p => SmsRelay.Run lib cfg (Sys.init env) (tr.flatMap Label.actions) p.sys) .nil ?_
  intro tr p l q hrun ih hstep
  have hproj := (trans_of_step hstep).project (processInv_reachable hrun)
  rw [List.flatMap_append, List.flatMap_singleton]
  exact ih.append hproj

end

end SmsRelay.Lifespan
