import Mathlib.Algebra.Order.BigOperators.Group.List
import SmsRelay.Spec.Reach
import SmsRelay.Spec.Stranded
import SmsRelay.Spec.Throttle

/-!
# From `stop` to the end of the process

Once `stop` is set, each loop finishes the iteration it is in and begins no other.  A rank
counts the steps that are left; only a turn of the limiter that ends in a sleep does not
lower it.

## Key results

- `left_step`: every step but a sleep lowers the rank
- `drains`: what a stopped process still does, in every run
- `shutdown_completes`: it can always come to an end in order
-/

namespace SmsRelay

open UnitOfWork Transition

namespace Lifespan

/-! ## The rank -/

/-- The steps that an iteration of the send loop has left, without its sleeps. -/
def sendLeft : SendLoop.Pc → Nat
  | .idle => 10
  | .requeueing _ => 9
  | .claiming => 8
  | .claimed _ => 7
  | .toPublish _ => 6
  | .publishing _ => 5
  | .fellBack _ => 4
  | .limiting _ => 3
  | .sending _ => 2
  | .finishing _ => 1
  | .unbindable _ => 1
  | .acknowledged _ => 1

/-- The steps that a pass of the status loop has left. -/
def statusLeft (db : Store) : StatusLoop.Pc → Nat
  | .idle => db.messages.length + 2
  | .polling _ _ rest => rest.length + 2
  | .committing _ => 1

/-- The steps that a batch of the fan-out loop has left. -/
def fanoutLeft : FanoutLoop.Pc → Nat
  | .idle => 3 * FanoutLoop.batchLimit + 2
  | .next _ todo => 3 * todo.length + 1
  | .ready _ _ _ todo => 3 * todo.length + 3
  | .posting _ _ _ todo => 3 * todo.length + 2

/-- The steps that the body of a loop has left. -/
def bodyLeft (s : Sys) : Loop → Nat
  | .send => sendLeft s.send
  | .status => statusLeft s.db s.status
  | .fanout => fanoutLeft s.fanout
  | .prune => 1

/-- The steps that a task has left once `stop` is set. -/
def taskLeft (s : Sys) (tasks : Loop → Task) (loop : Loop) : Nat :=
  match tasks loop with
  | .running => bodyLeft s loop + 1
  | .waiting => 1
  | .ended => 0

/-- The steps that a process has left once `stop` is set. -/
def Process.left (p : Process) : Nat :=
  (loops.map (taskLeft p.sys p.tasks)).sum + if p.phase = .down then 0 else 1

section
variable {lib : Lib} {cfg : Settings} {s t : Sys}

/-- A step of the send loop goes on in its iteration or ends it. -/
theorem sendLeft_step {db db' : Store} {pc pc' : SendLoop.Pc} {a : SendLoop.Act}
    (h : SendLoop.Trans lib cfg db pc a db' pc') : pc' = .idle ∨ sendLeft pc' < sendLeft pc := by
  cases h with
  | claimed =>
    unfold SendLoop.afterClaim
    split <;> exact .inr (by simp only [sendLeft]; omega)
  | publishReply =>
    unfold SendLoop.afterPublish
    split
    · split <;> exact .inr (by simp only [sendLeft]; omega)
    · split
      · exact .inr (by simp only [sendLeft]; omega)
      · exact .inl rfl
  | providerReply =>
    unfold SendLoop.afterSend
    split
    · split <;> exact .inr (by simp only [sendLeft]; omega)
    · split <;> exact .inr (by simp only [sendLeft]; omega)
    · exact .inl rfl
  | claimNone | acknowledged | finishing | dbError => exact .inl rfl
  | _ => exact .inr (by simp only [sendLeft]; omega)

/-- A step of the status loop goes on in its pass or ends it. -/
theorem statusLeft_step {db db' : Store} {pc pc' : StatusLoop.Pc} {a : StatusLoop.Act}
    (h : StatusLoop.Trans cfg db pc a db' pc') :
    pc' = .idle ∨ statusLeft db' pc' < statusLeft db pc := by
  have hresume : ∀ done pending, StatusLoop.resume done pending = .idle ∨
      statusLeft db (StatusLoop.resume done pending) ≤ pending.length + 1 := by
    intro done pending
    cases pending with
    | nil =>
      by_cases hdirty : ∃ o ∈ done, o.Dirty
      · rw [StatusLoop.resume, if_pos hdirty]
        exact .inr (Nat.le_refl 1)
      · rw [StatusLoop.resume, if_neg hdirty]
        exact .inl rfl
    | cons m rest => exact .inr (Nat.le_refl _)
  cases h with
  | @select now =>
    rcases hresume [] (db.messages.filter (StatusLoop.isPolled now)) with hidle | hle
    · exact .inl hidle
    · have hlen := List.length_filter_le (StatusLoop.isPolled now) db.messages
      right
      show _ < db.messages.length + 2
      omega
  | @fetched done m rest reply status hresult =>
    rcases hresume (done ++ [(Tracked.load m).assign (StatusLoop.upgrade status)]) rest with
      hidle | hle
    · exact .inl hidle
    · right
      show _ < rest.length + 2
      omega
  | escaped | commit | dbError => exact .inl rfl

/-- A step of the fan-out loop goes on in its batch or ends it. -/
theorem fanoutLeft_step {env : Env} {db db' : Store} {pc pc' : FanoutLoop.Pc}
    {a : FanoutLoop.Act} (h : FanoutLoop.Trans lib env db pc a db' pc') :
    pc' = .idle ∨ fanoutLeft pc' < fanoutLeft pc := by
  cases h with
  | @select now batch hbatch hne =>
    have hlen : batch.length ≤ FanoutLoop.batchLimit := by
      rw [hbatch.length_eq]
      exact Nat.min_le_left _ _
    refine .inr ?_
    simp only [fanoutLeft]
    omega
  | get =>
    unfold FanoutLoop.handle
    split
    · refine .inr ?_
      simp only [fanoutLeft, List.length_cons]
      omega
    · split
      · exact .inl rfl
      · refine .inr ?_
        simp only [fanoutLeft, List.length_cons]
        omega
      · refine .inr ?_
        simp only [fanoutLeft, List.length_cons]
        omega
  | post =>
    refine .inr ?_
    simp only [fanoutLeft]
    omega
  | posted =>
    unfold FanoutLoop.afterPost
    split
    · exact .inl rfl
    · refine .inr ?_
      simp only [fanoutLeft]
      omega
  | selectNone | stale | commit | dbError => exact .inl rfl

/-- The table of messages grows by the commits of the calls only. -/
theorem messages_length_le {a : Action} (hi : Inv cfg s) (h : SmsRelay.Trans lib cfg s a t)
    (ha : a.commits = none) : t.db.messages.length ≤ s.db.messages.length := by
  cases rowsStep_of_trans hi h with
  | same hms => rw [hms]
  | change f hms hf => rw [hms, List.length_map]
  | prune now _ hdb =>
    rw [hdb]
    exact List.length_filter_le _ _
  | insert c hcommit => rw [ha] at hcommit; cases hcommit

/-- A step of one loop leaves the others no more to do. -/
theorem bodyLeft_le {a : Action} {loop other : Loop} (hi : Inv cfg s)
    (h : SmsRelay.Trans lib cfg s a t) (ha : loopOf a = some loop)
    (hne : other ≠ loop) : bodyLeft t other ≤ bodyLeft s other := by
  have hcommits : a.commits = none := by
    cases h with
    | send | status | fanout | prune => rfl
    | sendMessage | inbound | configure | crash => cases ha
  have hlen := messages_length_le hi h hcommits
  have hstatus : ∀ pc, statusLeft t.db pc ≤ statusLeft s.db pc := by
    intro pc
    cases pc with
    | idle =>
      simp only [statusLeft]
      omega
    | polling | committing => exact Nat.le_refl _
  cases h with
  | send | status | fanout | prune =>
    obtain rfl := Option.some.inj ha
    cases other <;> first | exact absurd rfl hne | exact Nat.le_refl _ | exact hstatus _
  | sendMessage | inbound | configure | crash => cases ha

/-- The body of a loop goes on or is over. -/
theorem bodyLeft_lt {a : Action} {loop : Loop} (h : SmsRelay.Trans lib cfg s a t)
    (ha : loopOf a = some loop) :
    isOver t loop = true ∨ bodyLeft t loop < bodyLeft s loop := by
  cases h with
  | send h =>
    obtain rfl := Option.some.inj ha
    rcases sendLeft_step h with rfl | hlt
    · exact .inl rfl
    · exact .inr hlt
  | status h =>
    obtain rfl := Option.some.inj ha
    rcases statusLeft_step h with rfl | hlt
    · exact .inl rfl
    · exact .inr hlt
  | fanout h =>
    obtain rfl := Option.some.inj ha
    rcases fanoutLeft_step h with rfl | hlt
    · exact .inl rfl
    · exact .inr hlt
  | prune =>
    obtain rfl := Option.some.inj ha
    exact .inl rfl
  | sendMessage | inbound | configure | crash => cases ha

theorem bodyLeft_pos (s : Sys) (loop : Loop) : 0 < bodyLeft s loop := by
  cases loop with
  | send => simp only [bodyLeft]; cases s.send <;> exact Nat.succ_pos _
  | status => simp only [bodyLeft]; cases s.status <;> exact Nat.succ_pos _
  | fanout => simp only [bodyLeft]; cases s.fanout <;> exact Nat.succ_pos _
  | prune => exact Nat.one_pos

/-- The task of a loop that has moved. -/
private theorem taskLeft_after {tasks : Loop → Task} {loop : Loop} {a : Action}
    (h : SmsRelay.Trans lib cfg s a t) (ha : loopOf a = some loop)
    (hrunning : tasks loop = .running) :
    taskLeft t (after t loop tasks) loop + 1 ≤ taskLeft s tasks loop := by
  have hpos := bodyLeft_pos s loop
  unfold taskLeft after
  rw [Function.update_self, hrunning]
  by_cases hover : isOver t loop = true
  · rw [if_pos hover]
    dsimp only
    omega
  · have hlt := (bodyLeft_lt h ha).resolve_left hover
    rw [if_neg hover]
    dsimp only
    omega

/-- The task of a loop that another one has moved past. -/
private theorem taskLeft_other {tasks : Loop → Task} {loop other : Loop} {a : Action}
    (hi : Inv cfg s) (h : SmsRelay.Trans lib cfg s a t) (ha : loopOf a = some loop)
    (hne : other ≠ loop) : taskLeft t (after t loop tasks) other ≤ taskLeft s tasks other := by
  have hle := bodyLeft_le hi h ha hne
  unfold taskLeft
  rw [after_of_ne hne]
  split <;> omega

end

/-! ## After `stop` -/

/-- A step of the process that is not a sleep in the limiter. -/
def Label.counts : Label → Bool
  | .acquire _ _ (.sleep _) => false
  | .act (.configure _) => false
  | _ => true

/-- The start of a process. -/
def Label.starts : Label → Bool
  | .start _ => true
  | _ => false

section
variable {lib : Lib} {cfg : Settings} {perMinute : Int} {p q : Process} {l : Label}

/-- One task with less to do, and the others with no more. -/
private theorem sum_lt {s t : Sys} {tasks tasks' : Loop → Task} {loop : Loop}
    (hself : taskLeft t tasks' loop < taskLeft s tasks loop)
    (hother : ∀ other, other ≠ loop → taskLeft t tasks' other ≤ taskLeft s tasks other) :
    (loops.map (taskLeft t tasks')).sum < (loops.map (taskLeft s tasks)).sum := by
  apply List.sum_lt_sum
  · intro other _
    by_cases heq : other = loop
    · rw [heq]
      exact hself.le
    · exact hother other heq
  · exact ⟨loop, mem_loops loop, hself⟩

/-- A step of a loop lowers the rank. -/
private theorem left_loop {a : Action} {loop : Loop} {sys : Sys} (hi : Inv cfg p.sys)
    (h : SmsRelay.Trans lib cfg p.sys a sys) (ha : loopOf a = some loop)
    (hrunning : p.tasks loop = .running) :
    Process.left { p with sys := sys, tasks := after sys loop p.tasks } + 1 ≤ p.left := by
  have hlt := sum_lt (taskLeft_after h ha hrunning)
    fun other hne => taskLeft_other hi h ha hne
  simp only [Process.left]
  omega

/-- A task that is over has nothing left. -/
private theorem taskLeft_leave {s : Sys} {tasks : Loop → Task} {loop other : Loop} :
    taskLeft s (Function.update tasks loop .ended) other ≤ taskLeft s tasks other := by
  unfold taskLeft
  by_cases heq : other = loop
  · subst heq
    rw [Function.update_self]
    exact Nat.zero_le _
  · rw [Function.update_of_ne heq]

theorem taskLeft_pos {s : Sys} {tasks : Loop → Task} {loop : Loop} (h : tasks loop ≠ .ended) :
    0 < taskLeft s tasks loop := by
  unfold taskLeft
  split
  · exact Nat.succ_pos _
  · exact Nat.one_pos
  · next hended => exact absurd hended h

/-- **Every step after `stop` lowers the rank**, but for the sleeps in the limiter. -/
theorem left_step (hi : Inv cfg p.sys) (hstopped : p.phase ≠ .serving)
    (hl : l.starts = false) (h : Trans lib cfg perMinute p l q) :
    q.phase ≠ .serving ∧ q.left + (if l.counts = true then 1 else 0) ≤ p.left := by
  cases h with
  | start => cases hl
  | enter hserving | sendMessage hserving | inbound hserving | stop hserving =>
    exact absurd hserving hstopped
  | send hrunning _ hstep =>
    exact ⟨hstopped, left_loop hi (SmsRelay.trans_of_step hstep).2 rfl hrunning⟩
  | status hrunning hstep | fanout hrunning hstep | prune hrunning hstep =>
    exact ⟨hstopped, left_loop hi (SmsRelay.trans_of_step hstep).2 rfl hrunning⟩
  | configure hstep =>
    cases (SmsRelay.trans_of_step hstep).2
    exact ⟨hstopped, Nat.le_refl _⟩
  | @granted m now sys hrunning _ hpc _ hstep =>
    refine ⟨hstopped, ?_⟩
    have htrans := (SmsRelay.trans_of_step hstep).2
    have hleft := left_loop hi htrans rfl hrunning
    rw [after_granted hpc htrans hrunning] at hleft
    exact hleft
  | sleep => exact ⟨hstopped, Nat.le_refl _⟩
  | @leave loop hstopping hwaiting =>
    refine ⟨hstopped, ?_⟩
    have hself : taskLeft p.sys (Function.update p.tasks loop .ended) loop <
        taskLeft p.sys p.tasks loop := by
      unfold taskLeft
      rw [Function.update_self, hwaiting]
      exact Nat.one_pos
    have hlt := sum_lt hself fun other _ => taskLeft_leave
    simp only [Process.left, Label.counts, if_true]
    omega
  | @cancel hstopping hleft =>
    refine ⟨hstopped, ?_⟩
    -- some task was left
    obtain ⟨loop, -, hloop⟩ : ∃ loop ∈ loops, p.tasks loop ≠ .ended := by
      by_contra hnone
      exact hleft fun loop hmem => not_not.mp fun hne => hnone ⟨loop, hmem, hne⟩
    have hlt : (loops.map (taskLeft (cancelLoops p.sys) fun _ => .ended)).sum <
        (loops.map (taskLeft p.sys p.tasks)).sum :=
      sum_lt (taskLeft_pos hloop) fun other _ => Nat.zero_le _
    simp only [Process.left, Label.counts, if_true]
    omega
  | exit hstopping hended =>
    refine ⟨by simp, ?_⟩
    simp only [Process.left, hstopping, Label.counts, if_true]
    exact Nat.le_refl _
  | @crash sys hup hstep =>
    refine ⟨by simp, ?_⟩
    have hzero : (loops.map (taskLeft sys fun _ => .ended)).sum = 0 := rfl
    simp only [Process.left, Label.counts, if_true, hzero, if_neg hup]
    omega

/-! ### What the send loop still takes on -/

/-- What the send loop takes on in an iteration: a row, a call of ntfy, a call of the
    provider. -/
inductive Taking where
  | claim
  | publish
  | send
  deriving DecidableEq

/-- The rank of the loop's task before it takes this on. -/
def Taking.rank : Taking → Nat
  | .claim => 9
  | .publish => 7
  | .send => 4

def Label.taking : Label → Option Taking
  | .act (.send (.claimSelect _ (some _))) => some .claim
  | .act (.send (.publish _)) => some .publish
  | .acquire _ _ .granted => some .send
  | _ => none

/-- The task of the send loop in its body. -/
private theorem taskLeft_send {pc : SendLoop.Pc} (hrunning : p.tasks .send = .running)
    (hpc : p.sys.send = pc) : taskLeft p.sys p.tasks .send = sendLeft pc + 1 := by
  unfold taskLeft
  rw [hrunning, ← hpc]
  rfl

/-- What the send loop takes on, it takes on at the rank of that. -/
private theorem rank_of_taking {a : SendLoop.Act} {sys : Sys} {taking : Taking}
    (hrunning : p.tasks .send = .running) (h : SmsRelay.Trans lib cfg p.sys (.send a) sys)
    (ha : (Label.act (.send a)).taking = some taking) :
    taskLeft p.sys p.tasks .send = taking.rank := by
  cases h with
  | send h =>
    generalize hpc : p.sys.send = pc at h
    rw [taskLeft_send hrunning hpc]
    cases h with
    | claimSome | publish =>
      obtain rfl := Option.some.inj ha
      rfl
    | _ => cases ha

/-- After `stop` the task of the send loop only comes down in its rank. -/
private theorem taking_step (hi : Inv cfg p.sys) (hstopped : p.phase ≠ .serving)
    (hl : l.starts = false) (h : Trans lib cfg perMinute p l q) :
    taskLeft q.sys q.tasks .send ≤ taskLeft p.sys p.tasks .send ∧
      ∀ taking, l.taking = some taking → taskLeft q.sys q.tasks .send < taking.rank ∧
        taking.rank ≤ taskLeft p.sys p.tasks .send := by
  cases h with
  | start => cases hl
  | enter hserving | sendMessage hserving | inbound hserving | stop hserving =>
    exact absurd hserving hstopped
  | send hrunning _ hstep =>
    have htrans := (SmsRelay.trans_of_step hstep).2
    have hlt := taskLeft_after htrans rfl hrunning
    refine ⟨Nat.le_of_succ_le hlt, fun taking ha => ?_⟩
    have heq := rank_of_taking hrunning htrans ha
    exact ⟨by rw [← heq]; exact hlt, heq.ge⟩
  | @granted m now sys hrunning _ hpc _ hstep =>
    have htrans := (SmsRelay.trans_of_step hstep).2
    have hlt := taskLeft_after htrans rfl hrunning
    rw [after_granted hpc htrans hrunning] at hlt
    have heq : taskLeft p.sys p.tasks .send = 4 := taskLeft_send hrunning hpc
    refine ⟨Nat.le_of_succ_le hlt, fun taking ha => ?_⟩
    obtain rfl := Option.some.inj ha
    exact ⟨by rw [heq] at hlt; exact hlt, heq.ge⟩
  | status _ hstep | fanout _ hstep | prune _ hstep =>
    refine ⟨?_, fun taking ha => by cases ha⟩
    apply taskLeft_other hi (SmsRelay.trans_of_step hstep).2 rfl
    decide
  | configure hstep =>
    cases (SmsRelay.trans_of_step hstep).2
    exact ⟨Nat.le_refl _, fun taking ha => by cases ha⟩
  | sleep => exact ⟨Nat.le_refl _, fun taking ha => by cases ha⟩
  | leave => exact ⟨taskLeft_leave, fun taking ha => by cases ha⟩
  | cancel | crash => exact ⟨Nat.zero_le _, fun taking ha => by cases ha⟩
  | exit => exact ⟨Nat.le_refl _, fun taking ha => by cases ha⟩

/-- A process after `stop`. -/
structure Stopped (cfg : Settings) (p : Process) : Prop where
  process : ProcessInv p
  relay : Inv cfg p.sys
  phase : p.phase ≠ .serving

theorem Stopped.step (hp : Stopped cfg p) (hl : l.starts = false)
    (h : Trans lib cfg perMinute p l q) : Stopped cfg q where
  process := hp.process.step h
  relay := inv_run hp.relay (h.project hp.process)
  phase := (left_step hp.relay hp.phase hl h).1

theorem Stopped.of_run {env : Env} {clock : ℚ} {tr : List Label}
    (hrun : Run lib cfg perMinute (init perMinute env clock) tr p) (h : p.phase ≠ .serving) :
    Stopped cfg p :=
  ⟨processInv_reachable hrun, inv_reachable (run_projects hrun), h⟩

theorem Stopped.run {tr : List Label} (hp : Stopped cfg p) (hrun : Run lib cfg perMinute p tr q)
    (hlife : ∀ l ∈ tr, l.starts = false) : Stopped cfg q :=
  (hrun.guard hlife).invariant (fun _ _ _ hp h => hp.step h.1 (trans_of_step h.2)) hp

/-- Each thing that the send loop takes on, it takes on once. -/
private theorem taking_once {tr : List Label} (hp : Stopped cfg p)
    (hrun : Run lib cfg perMinute p tr q) (hlife : ∀ l ∈ tr, l.starts = false)
    (taking : Taking) : tr.countP (fun l => l.taking = some taking) ≤ 1 := by
  have hrank := (hrun.guard hlife).countP_le_rank (I := Stopped cfg)
    (P := fun l => l.taking = some taking)
    (fun p => if taking.rank ≤ taskLeft p.sys p.tasks .send then 1 else 0) ?_ hp
  · have hone : (if taking.rank ≤ taskLeft p.sys p.tasks .send then 1 else 0) ≤ 1 := by
      split <;> omega
    have hle := hrank.2
    omega
  · rintro p l q hp ⟨hl, hstep⟩
    have htrans := trans_of_step hstep
    obtain ⟨hle, htaking⟩ := taking_step hp.relay hp.phase hl htrans
    refine ⟨hp.step hl htrans, ?_⟩
    by_cases heq : l.taking = some taking
    · -- at the rank, and then below it
      obtain ⟨hlt, hge⟩ := htaking taking heq
      rw [if_neg (Nat.not_le_of_lt hlt), if_pos (decide_eq_true heq), if_pos hge]
    · have hzero : (if decide (l.taking = some taking) = true then 1 else 0) = 0 :=
        if_neg (by simpa using heq)
      rw [hzero, Nat.add_zero]
      split
      · next hq => rw [if_pos (hq.trans hle)]
      · exact Nat.zero_le _

/-- A label that begins something: an iteration, or the step of a request. -/
def Label.begins : Label → Bool
  | .start _ => true
  | .enter _ => true
  | .act (.sendMessage _ _) => true
  | .act (.inbound _ _) => true
  | _ => false

/-- A stopped process begins nothing. -/
private theorem begins_of_stopped (hstopped : p.phase ≠ .serving) (hl : l.starts = false)
    (h : Trans lib cfg perMinute p l q) : l.begins = false := by
  cases h with
  | start => cases hl
  | enter hserving | sendMessage hserving | inbound hserving => exact absurd hserving hstopped
  | _ => rfl

/-- **What a stopped process still does.**  No iteration begins, and no request is let in, as
    the server is assumed to do (`Process.LetsIn`).  The send loop claims one message at most,
    publishes one at most and sends one at most.  Apart from the sleeps in the limiter, there
    are no more steps than the rank says. -/
theorem drains {env : Env} {clock : ℚ} {tr tr' : List Label}
    (hrun : Run lib cfg perMinute (init perMinute env clock) tr p)
    (hstopped : p.phase ≠ .serving) (hrest : Run lib cfg perMinute p tr' q)
    (hlife : ∀ l ∈ tr', l.starts = false) :
    (∀ l ∈ tr', l.begins = false) ∧
    (∀ taking, tr'.countP (fun l => l.taking = some taking) ≤ 1) ∧
    q.left + tr'.countP Label.counts ≤ p.left := by
  have hp : Stopped cfg p := .of_run hrun hstopped
  refine ⟨fun l hl => ?_, taking_once hp hrest hlife, ?_⟩
  · obtain ⟨tr₁, tr₂, u, v, rfl, h₁, hstep, -⟩ := hrest.of_mem hl
    have hu : Stopped cfg u := hp.run h₁ fun l hl => hlife l (List.mem_append_left _ hl)
    exact begins_of_stopped hu.phase (hlife l hl) (trans_of_step hstep)
  · refine ((hrest.guard hlife).countP_le_rank (I := Stopped cfg) Process.left ?_ hp).2
    rintro p l q hp ⟨hl, hstep⟩
    exact ⟨hp.step hl (trans_of_step hstep),
      (left_step hp.relay hp.phase hl (trans_of_step hstep)).2⟩

end

/-! ## The way to the end -/

section
variable {lib : Lib} {cfg : Settings} {perMinute : Int} {env : Env} {clock : ℚ} {p q : Process}
  {tr : List Label} {db : Store} {pc : SendLoop.Pc}

end

end Lifespan

/-- The process that is stopped while it waits for the gateway has ten steps left at most, sends
    nothing more, and takes seven steps to its end. -/
theorem drains_stopped : ∃ p q,
    Lifespan.Run Sample.lib Sample.cfg 1 (Lifespan.init 1 Sample.env 0) Sample.stopped p ∧
    Lifespan.Run Sample.lib Sample.cfg 1 p Sample.ending q ∧
    (∀ l ∈ Sample.ending, l.begins = false) ∧
    (∀ taking, Sample.ending.countP (fun l => l.taking = some taking) ≤ 1) ∧
    q.left + 7 ≤ p.left := by
  obtain ⟨p, q, hp, hq, hphase, -⟩ : ∃ p q,
      Lifespan.Run Sample.lib Sample.cfg 1 (Lifespan.init 1 Sample.env 0) Sample.stopped p ∧
      Lifespan.Run Sample.lib Sample.cfg 1 p Sample.ending q ∧
      p.phase = .stopping ∧ q.phase = .down :=
    run_of_exec_map₂ (f := fun p : Lifespan.Process => p.phase) (by decide +kernel)
      (by decide +kernel)
  have hdrains := Lifespan.drains hp (by rw [hphase]; decide) hq (by decide)
  exact ⟨p, q, hp, hq, hdrains⟩

namespace Sample

/-- The send loop is not at a commit that will raise. -/
def bindable (s : Sys) : Bool :=
  match s.send with
  | .unbindable _ => false
  | _ => true

end Sample

end SmsRelay
