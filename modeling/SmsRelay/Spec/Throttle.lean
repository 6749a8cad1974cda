import SmsRelay.Spec.Lifespan
import SmsRelay.Spec.Limiter
import SmsRelay.Spec.Queue

/-!
# The pace of the provider

`provider.send` is called behind the limiter, and the limiter lives as long as its process.
So within one process no minute has more calls than the limit, and a restart inside of a
minute makes room for as many again.  The send loop is the limiter's only caller: once it
has slept for as long as it was told to, it is let through.

## Key results

- `throttled_run`: the limiter of the process against the calls of the whole run
- `provider_throttled`: what a minute has of calls, over any number of processes
- `acquire_wakes`: one sleep is enough, and it ends when there is room
-/

namespace SmsRelay

open Transition SlidingWindow
open RateLimiter (LimiterInv limit)

namespace Lifespan

/-- The times at which `provider.send` was called. -/
def sends (tr : List Label) : List ℚ :=
  tr.filterMap fun
    | .acquire _ now .granted => some now
    | _ => none

/-- The times at which a process was started. -/
def starts (tr : List Label) : List ℚ :=
  tr.filterMap fun
    | .start now => some now
    | _ => none

theorem sends_append (tr₁ tr₂ : List Label) : sends (tr₁ ++ tr₂) = sends tr₁ ++ sends tr₂ :=
  List.filterMap_append

theorem starts_append (tr₁ tr₂ : List Label) : starts (tr₁ ++ tr₂) = starts tr₁ ++ starts tr₂ :=
  List.filterMap_append

/-! ## The limiter of the process -/

/-- The limiter against the calls of its own process, and these against all calls. -/
structure Throttled (perMinute : Int) (starts past current : List ℚ) (p : Process) : Prop where
  restarted : Restarted 60 (limit perMinute) starts past current
  limiter : ∃ callers, LimiterInv perMinute current ⟨p.limiter, p.clock, callers⟩
  starts_le : ∀ s ∈ starts, s ≤ p.clock
  sends_le : ∀ e ∈ past ++ current, e ≤ p.clock

section
variable {lib : Lib} {cfg : Settings} {perMinute : Int} {p q : Process} {l : Label}
  {past current started : List ℚ}

/-- A new limiter has let nothing through. -/
private theorem limiterInv_new (perMinute : Int) (now : ℚ) :
    LimiterInv perMinute [] ⟨.new perMinute, now, fun _ => .idle⟩ :=
  RateLimiter.limiterInv_run .nil

/-- A turn keeps the limiter in step with the calls, whoever takes it. -/
private theorem limiterInv_turn {limiter : RateLimiter} {clock now : ℚ}
    (h : ∃ callers, LimiterInv perMinute current ⟨limiter, clock, callers⟩)
    (hclock : clock ≤ now) : ∃ callers, LimiterInv perMinute
      (current ++ if (limiter.turn now).2 = .granted then [now] else [])
      ⟨(limiter.turn now).1, now, callers⟩ := by
  obtain ⟨callers, h⟩ := h
  obtain ⟨t, hstep⟩ := h.exists_step 0 hclock
  have hinv := RateLimiter.limiterInv_step h hstep
  -- the step has only moved its caller besides
  have ht : t = ⟨(limiter.turn now).1, now, t.callers⟩ := by
    unfold RateLimiter.step at hstep
    rw [if_pos ⟨hclock, h.quiet 0, rfl⟩] at hstep
    obtain rfl := Option.some.inj hstep
    rfl
  rw [ht] at hinv
  refine ⟨t.callers, ?_⟩
  by_cases hgranted : (limiter.turn now).2 = .granted
  · have hgrants : RateLimiter.grants [⟨0, now, (limiter.turn now).2⟩] = [now] := by
      simp [RateLimiter.grants, hgranted]
    rwa [if_pos hgranted, ← hgrants]
  · have hgrants : RateLimiter.grants [⟨0, now, (limiter.turn now).2⟩] = [] := by
      simp [RateLimiter.grants, hgranted]
    rwa [if_neg hgranted, ← hgrants]

/-- A step without the limiter leaves everything as it was. -/
private theorem Throttled.frame (h : Throttled perMinute started past current p)
    (hlimiter : q.limiter = p.limiter) (hclock : q.clock = p.clock) :
    Throttled perMinute started past current q where
  restarted := h.restarted
  limiter := by rw [hlimiter, hclock]; exact h.limiter
  starts_le := by rw [hclock]; exact h.starts_le
  sends_le := by rw [hclock]; exact h.sends_le

/-- **A step keeps the limiter in step with the calls of its process.** -/
theorem Throttled.step (h : Throttled perMinute started past current p)
    (hstep : Trans lib cfg perMinute p l q) :
    ∃ past' current', past' ++ current' = past ++ current ++ sends [l] ∧
      Throttled perMinute (started ++ starts [l]) past' current' q := by
  cases hstep with
  | @start now hdown hclock =>
    -- the calls so far are those of an earlier process
    refine ⟨past ++ current, [], by simp [sends], ?_⟩
    have hstarts : ∀ s ∈ started, s ≤ now := fun s hs => (h.starts_le s hs).trans hclock
    have hsends : ∀ e ∈ past ++ current, e ≤ now := fun e he => (h.sends_le e he).trans hclock
    exact
      { restarted := h.restarted.start hstarts hsends
        limiter := ⟨_, limiterInv_new perMinute now⟩
        starts_le := fun s hs => by
          rcases List.mem_append.mp hs with hs | hs
          · exact hstarts s hs
          · exact le_of_eq (List.mem_singleton.mp hs)
        sends_le := by rw [List.append_nil]; exact hsends }
  | @granted m now sys hrunning hclock hpc hturn hact =>
    refine ⟨past, current ++ [now], by simp [sends], ?_⟩
    have hsends : ∀ e ∈ past ++ current, e ≤ now := fun e he => (h.sends_le e he).trans hclock
    have hstarts : ∀ s ∈ started, s ≤ now := fun s hs => (h.starts_le s hs).trans hclock
    have hnext := limiterInv_turn h.limiter hclock
    rw [if_pos hturn] at hnext
    -- the limiter has found room among the calls of its own process
    have hroom : (recent 60 now current).length < limit perMinute := by
      obtain ⟨callers, hinv⟩ := h.limiter
      obtain ⟨hroom, -⟩ | ⟨-, seconds, -, hsleep⟩ := hinv.turn_cases hclock
      · exact hroom
      · have hboth := hturn.symm.trans (congrArg Prod.snd hsleep)
        cases hboth
    have hstarted : started ++ starts [Label.acquire m.id now .granted] = started := by
      simp [starts]
    rw [hstarted]
    exact
      { restarted := h.restarted.event hstarts hsends hroom
        limiter := hnext
        starts_le := hstarts
        sends_le := fun e he => by
          rw [← List.append_assoc] at he
          rcases List.mem_append.mp he with he | he
          · exact hsends e he
          · exact le_of_eq (List.mem_singleton.mp he) }
  | @sleep m now seconds hrunning hclock hpc hturn =>
    have hnext := limiterInv_turn h.limiter hclock
    rw [hturn, if_neg (by simp), List.append_nil] at hnext
    refine ⟨past, current, by simp [sends], ?_⟩
    have hstarted : started ++ starts [Label.acquire m.id now (.sleep seconds)] = started := by
      simp [starts]
    rw [hstarted]
    exact
      { restarted := h.restarted
        limiter := hnext
        starts_le := fun s hs => (h.starts_le s hs).trans hclock
        sends_le := fun e he => (h.sends_le e he).trans hclock }
  | enter | send | status | fanout | prune | sendMessage | inbound | configure | stop | leave
  | cancel | exit | crash =>
    refine ⟨past, current, by simp [sends], ?_⟩
    simp only [starts, List.filterMap_cons, List.filterMap_nil, List.append_nil]
    exact h.frame rfl rfl

/-- **The limiter of the process against the calls of the whole run.** -/
theorem throttled_run {env : Env} {clock : ℚ} {tr : List Label}
    (hrun : Run lib cfg perMinute (init perMinute env clock) tr p) :
    ∃ past current, sends tr = past ++ current ∧
      Throttled perMinute (starts tr) past current p := by
  refine hrun.traceInvariant (P := fun tr p => ∃ past current, sends tr = past ++ current ∧
      Throttled perMinute (starts tr) past current p) ?_ ?_
  · refine ⟨[], [], rfl, ?_⟩
    exact
      { restarted := .nil
        limiter := ⟨_, limiterInv_new perMinute clock⟩
        starts_le := fun s hs => absurd hs List.not_mem_nil
        sends_le := fun e he => absurd he List.not_mem_nil }
  · intro tr p l q _ ih hstep
    obtain ⟨past, current, heq, h⟩ := ih
    obtain ⟨past', current', heq', h'⟩ := h.step (trans_of_step hstep)
    refine ⟨past', current', ?_, ?_⟩
    · rw [sends_append, heq, heq']
    · rw [starts_append]
      exact h'

end

/-! ## The calls of a minute -/

/-- A call of `provider.send`. -/
def callsProvider : Action → Bool
  | .send (.providerSend _) => true
  | _ => false

section
variable {lib : Lib} {cfg : Settings} {perMinute : Int} {p q : Process} {env : Env} {clock : ℚ}
  {tr : List Label}

/-- A step calls the provider when the limiter lets the loop through, and at no other time. -/
private theorem calls_of_trans {l : Label} (h : Trans lib cfg perMinute p l q) :
    l.actions.countP callsProvider = (sends [l]).length := by
  cases h with
  | @send a sys _ hne _ =>
    have hnone : callsProvider (.send a) = false := by
      unfold callsProvider
      split
      · next heq => exact absurd (Action.send.inj heq) (hne _)
      · rfl
    simp [Label.actions, sends, hnone]
  | _ => rfl

/-- The calls of the relay are those that the limiter has let through. -/
theorem countP_calls (hrun : Run lib cfg perMinute (init perMinute env clock) tr p) :
    (tr.flatMap Label.actions).countP callsProvider = (sends tr).length := by
  refine hrun.traceInvariant (P := fun tr _ =>
    (tr.flatMap Label.actions).countP callsProvider = (sends tr).length) rfl ?_
  intro tr p l q _ ih hstep
  have hlast := calls_of_trans (trans_of_step hstep)
  rw [List.flatMap_append, List.flatMap_singleton, List.countP_append, sends_append,
    List.length_append, ih, hlast]

/-- **What a minute has of calls, over any number of processes**: as many as the limit for
    each process that was up in it, and none that the limiter did not let through.  The
    readings of the clock are exact rationals, a minute is exact in them. -/
theorem provider_throttled (hrun : Run lib cfg perMinute (init perMinute env clock) tr p) :
    (tr.flatMap Label.actions).countP callsProvider = (sends tr).length ∧
    (sends tr).Pairwise (· ≤ ·) ∧
    ∀ x : ℚ, (sends tr).countP (fun g => x ≤ g ∧ g < x + 60) ≤
      limit perMinute * (1 + (starts tr).countP fun s => x ≤ s ∧ s < x + 60) := by
  obtain ⟨past, current, heq, h⟩ := throttled_run hrun
  refine ⟨countP_calls hrun, ?_, fun x => ?_⟩
  · rw [heq]
    exact h.restarted.sorted
  · rw [heq]
    exact h.restarted.countP_le x

end

/-! ## The only caller -/

section
variable {perMinute : Int} {granted : List ℚ} {limiter : RateLimiter} {clock now seconds : ℚ}

/-- The oldest call a sleeping turn leaves in the deque, and what it sleeps for. -/
private theorem turn_sleep (h : (limiter.turn now).2 = .sleep seconds) :
    ∃ t rest, RateLimiter.popOld now limiter.sent = t :: rest ∧
      seconds = max (1 / 10) (60 - (now - t)) ∧
      limiter.perMinute ≤ ((t :: rest).length : Int) ∧
      (limiter.turn now).1 = { limiter with sent := t :: rest } := by
  unfold RateLimiter.turn at h ⊢
  dsimp only at h ⊢
  by_cases hroom : ((RateLimiter.popOld now limiter.sent).length : Int) < limiter.perMinute
  · rw [if_pos hroom] at h
    cases h
  · rw [if_neg hroom] at h ⊢
    cases hsent : RateLimiter.popOld now limiter.sent with
    | nil =>
      rw [hsent] at h
      cases h
    | cons t rest =>
      rw [hsent] at h hroom
      refine ⟨t, rest, rfl, ?_, Int.not_lt.mp hroom, rfl⟩
      exact (RateLimiter.Turn.sleep.inj h).symm

private theorem popOld_length_le (now : ℚ) (sent : List ℚ) :
    (RateLimiter.popOld now sent).length ≤ sent.length := by
  induction sent with
  | nil => exact Nat.le_refl 0
  | cons t sent ih =>
    unfold RateLimiter.popOld
    split
    · exact Nat.le_succ_of_le ih
    · exact Nat.le_refl _

/-- A turn after a sleeping one: it finds room when the oldest call is a minute old. -/
private theorem turn_after_sleep (now' : ℚ)
    (h : ∃ callers, LimiterInv perMinute granted ⟨limiter, clock, callers⟩)
    (hclock : clock ≤ now) (hsleep : (limiter.turn now).2 = .sleep seconds) :
    1 / 10 ≤ seconds ∧ seconds ≤ 60 ∧
      (now + seconds ≤ now' → ((limiter.turn now).1.turn now').2 = .granted) ∧
      (1 / 10 < seconds → now' < now + seconds →
        ∃ seconds', ((limiter.turn now).1.turn now').2 = .sleep seconds') := by
  obtain ⟨callers, hnext⟩ := limiterInv_turn h hclock
  rw [hsleep, if_neg (by simp), List.append_nil] at hnext
  obtain ⟨t, rest, -, hseconds, hfull, hturn⟩ := turn_sleep hsleep
  rw [hturn] at hnext ⊢
  -- the deque is full, and its oldest call is not ahead
  have hlimit : limiter.perMinute = limit perMinute := hnext.limit_eq
  have hlength : (t :: rest).length ≤ limit perMinute := hnext.length_le
  have ht : t ≤ now := by
    obtain ⟨dropped, heq, -⟩ := hnext.covers
    have hmem : t ∈ granted := by
      rw [heq]
      exact List.mem_append_right _ List.mem_cons_self
    exact hnext.past t hmem
  have hmin : 1 / 10 ≤ seconds := hseconds ▸ le_max_left _ _
  refine ⟨hmin, ?_, fun hlate => ?_, fun hlong hearly => ?_⟩
  · rw [hseconds]
    exact max_le (by norm_num) (by linarith)
  · -- the oldest call goes, and with it the deque is no longer full
    have hold : 60 ≤ now' - t := by
      have hwait : 60 - (now - t) ≤ seconds := hseconds ▸ le_max_right _ _
      linarith
    have hpop : RateLimiter.popOld now' (t :: rest) = RateLimiter.popOld now' rest := by
      rw [RateLimiter.popOld, if_pos hold]
    have hshort := popOld_length_le now' rest
    have hroom : ((RateLimiter.popOld now' rest).length : Int) < limiter.perMinute := by
      rw [List.length_cons] at hlength
      omega
    unfold RateLimiter.turn
    dsimp only
    rw [hpop, if_pos hroom]
  · -- nothing has gone
    have hwait : seconds = 60 - (now - t) := by
      rcases max_choice (1 / 10 : ℚ) (60 - (now - t)) with hmax | hmax
      · rw [hmax] at hseconds
        linarith
      · rw [hseconds, hmax]
    have hnew : ¬ 60 ≤ now' - t := by
      intro hold
      linarith
    have hpop : RateLimiter.popOld now' (t :: rest) = t :: rest := by
      rw [RateLimiter.popOld, if_neg hnew]
    unfold RateLimiter.turn
    dsimp only
    rw [hpop, if_neg (not_lt_of_ge hfull)]
    exact ⟨_, rfl⟩

end

/-- Neither a turn of the limiter nor the start of a process. -/
def Label.leavesLimiter : Label → Bool
  | .acquire _ _ _ => false
  | .start _ => false
  | _ => true

section
variable {lib : Lib} {cfg : Settings} {perMinute : Int} {p q r : Process} {env : Env} {clock : ℚ}

/-- The loop waits in the limiter, or its task is over. -/
private def Waits (m : Message) (p : Process) : Prop :=
  p.tasks .send = .ended ∨ p.tasks .send = .running ∧ p.sys.send = .limiting m

/-- What does not move the send loop leaves it in the limiter. -/
private theorem Waits.of_eq {m : Message} (h : Waits m p) (htask : q.tasks .send = p.tasks .send)
    (hpc : q.sys.send = p.sys.send) : Waits m q := by
  unfold Waits
  rw [htask, hpc]
  exact h

/-- A task that waits for its loop is not the one of a loop in the limiter. -/
private theorem Waits.ne_send {m : Message} (h : Waits m p) {loop : Loop}
    (hwaiting : p.tasks loop = .waiting) : loop ≠ .send := by
  rintro rfl
  obtain h | ⟨h, -⟩ := h <;> rw [h] at hwaiting <;> cases hwaiting

/-- While the loop waits in the limiter, only the end of its task moves it. -/
private theorem waits_step {l : Label} {m : Message} (h : Trans lib cfg perMinute p l q)
    (hl : l.leavesLimiter = true) (hp : Waits m p) :
    Waits m q ∧ q.limiter = p.limiter ∧ q.clock = p.clock := by
  cases h with
  | start | granted | sleep => cases hl
  | enter _ hwaiting | leave _ hwaiting =>
    have hother := hp.ne_send hwaiting
    exact ⟨hp.of_eq (Function.update_of_ne hother.symm _ _) rfl, rfl, rfl⟩
  | send hrunning hne hstep =>
    refine ⟨?_, rfl, rfl⟩
    obtain hended | ⟨-, hpc⟩ := hp
    · rw [hended] at hrunning
      cases hrunning
    · -- the loop awaits nothing but the limiter
      cases (SmsRelay.trans_of_step hstep).2 with
      | send h =>
        rw [hpc] at h
        cases h with
        | providerSend => exact absurd rfl (hne _)
        | dbError hdb => cases hdb
  | status _ hstep | fanout _ hstep | prune _ hstep =>
    refine ⟨?_, rfl, rfl⟩
    apply hp.of_eq
    · dsimp only
      apply after_of_ne
      decide
    · cases (SmsRelay.trans_of_step hstep).2
      rfl
  | sendMessage _ hstep | inbound _ hstep | configure hstep =>
    refine ⟨hp.of_eq rfl ?_, rfl, rfl⟩
    cases (SmsRelay.trans_of_step hstep).2
    rfl
  | stop | exit => exact ⟨hp.of_eq rfl rfl, rfl, rfl⟩
  | cancel | crash => exact ⟨.inl rfl, rfl, rfl⟩

/-- **One sleep is enough, and it ends when there is room.**  The sleep of the send loop takes
    a minute at most.  Its next turn is for the same message; it lets the loop through if the
    sleep was not cut short, and if the sleep was longer than its least length, then only so.
    The readings of the clock are exact rationals: with binary64 ones `now - self._sent[0]` may
    round below 60 after a whole sleep, which costs one more turn of a tenth of a second. -/
theorem acquire_wakes {id id' : String} {now now' seconds : ℚ} {turn : RateLimiter.Turn}
    {tr₁ tr₂ : List Label}
    (hrun : Run lib cfg perMinute (init perMinute env clock)
      (tr₁ ++ .acquire id now (.sleep seconds) :: tr₂ ++ [.acquire id' now' turn]) r)
    (hbetween : ∀ l ∈ tr₂, l.leavesLimiter = true) :
    id' = id ∧ 1 / 10 ≤ seconds ∧ seconds ≤ 60 ∧ (now + seconds ≤ now' → turn = .granted) ∧
      (1 / 10 < seconds → now' < now + seconds → ∃ seconds', turn = .sleep seconds') := by
  obtain ⟨q, hrun, hlast⟩ := hrun.split
  obtain ⟨p, hrun₁, hrun₂⟩ := hrun.split
  obtain ⟨u, hsleep, hrest⟩ := hrun₂.cons_inv
  obtain ⟨v, hturn, -⟩ := hlast.cons_inv
  obtain ⟨past, current, -, hthrottled⟩ := throttled_run hrun₁
  cases trans_of_step hsleep with
  | @sleep m now seconds hrunning hclock hpc hslept =>
    -- between the two turns the loop waits, and its limiter stays as it was
    have hwaits : Waits m q ∧ q.limiter = (p.limiter.turn now).1 ∧ q.clock = now := by
      refine (hrest.guard hbetween).invariant (I := fun q =>
        Waits m q ∧ q.limiter = (p.limiter.turn now).1 ∧ q.clock = now) ?_ ?_
      · rintro s l t ⟨hs, hlimiter, hnow⟩ ⟨hl, hstep⟩
        obtain ⟨ht, hlimiter', hnow'⟩ := waits_step (trans_of_step hstep) hl hs
        exact ⟨ht, hlimiter'.trans hlimiter, hnow'.trans hnow⟩
      · exact ⟨.inr ⟨hrunning, hpc⟩, rfl, rfl⟩
    obtain ⟨hq, hlimiter, -⟩ := hwaits
    obtain ⟨hmin, hmax, hgranted, hasleep⟩ :=
      turn_after_sleep now' hthrottled.limiter hclock hslept
    rw [← hlimiter] at hgranted hasleep
    -- the next turn is one of the same wait
    have hwaiting : ∀ m', q.tasks .send = .running → q.sys.send = .limiting m' → m' = m := by
      intro m' hrunning' hpc'
      obtain hended | ⟨-, hpc⟩ := hq
      · rw [hended] at hrunning'
        cases hrunning'
      · exact SendLoop.Pc.limiting.inj (hpc'.symm.trans hpc)
    cases trans_of_step hturn with
    | granted hrunning' _ hpc' hend _ =>
      obtain rfl := hwaiting _ hrunning' hpc'
      refine ⟨rfl, hmin, hmax, fun _ => rfl, fun hlong hearly => ?_⟩
      obtain ⟨seconds', hend'⟩ := hasleep hlong hearly
      have hboth := hend.symm.trans hend'
      cases hboth
    | @sleep _ _ seconds' hrunning' _ hpc' hend =>
      obtain rfl := hwaiting _ hrunning' hpc'
      exact ⟨rfl, hmin, hmax, fun hlate => hend.symm.trans (hgranted hlate),
        fun _ _ => ⟨seconds', rfl⟩⟩

end

end Lifespan

/-! ## A restart to replay -/

namespace Sample

open Lifespan (Label)

/-- The send loop takes a message to its `POST`, at the time `now` of both clocks. -/
def postOver (id : String) (now : Nat) : List Label :=
  [.enter .send, .act (.send (.requeueSelect now now)), .act (.send (.claimSelect now (some id))),
    .act (.send (.commit now)), .acquire id now .granted]

/-- The gateway takes the message. -/
def takenOver (id gid : String) (now : Nat) : List Label :=
  [.act (answer id 202 (some (.obj [("id", .str gid)])) now), .act (.send (.commit now))]

/-- A deployment that allows one message a minute: the first goes out after 10 seconds, and
    the second finds no room. -/
def waitedRun : List Label :=
  [.start 0] ++ (queue "m1" 0).map .act ++ postOver "m1" 10 ++ takenOver "m1" "g1" 11 ++
    [.act (.sendMessage 1 (.begin "svc" request)), .act (.sendMessage 1 (.create ["m2"] 12)),
      .act (.sendMessage 1 .commit)] ++
    (postOver "m2" 20).dropLast

/-- While the second waits the process dies, and after its restart the row is found stuck
    and goes out at once. -/
def restartedRun : List Label :=
  waitedRun ++ [.acquire "m2" 20 (.sleep 50), .crash, .start 30] ++
    [.enter .send, .act (.send (.requeueSelect (seconds 400) (seconds 400))),
      .act (.send (.commit (seconds 400))),
      .act (.send (.claimSelect (seconds 400) (some "m2"))), .act (.send (.commit (seconds 400))),
      .acquire "m2" 40 .granted]

end Sample

/-- The restarted run has two calls within 30 seconds, as many as a minute with one start
    in it may have. -/
theorem provider_throttled_restarted : ∃ p,
    Lifespan.Run Sample.lib Sample.cfg 1 (Lifespan.init 1 Sample.env 0) Sample.restartedRun p ∧
    Sample.statuses p.sys = [("m1", .sent), ("m2", .sending)] ∧
    (Lifespan.sends Sample.restartedRun).countP (fun g => (10 : ℚ) ≤ g ∧ g < 10 + 60) = 2 ∧
    limit 1 * (1 + (Lifespan.starts Sample.restartedRun).countP
      fun s => (10 : ℚ) ≤ s ∧ s < 10 + 60) = 2 ∧
    (Lifespan.sends Sample.restartedRun).countP (fun g => (10 : ℚ) ≤ g ∧ g < 10 + 60) ≤
      limit 1 * (1 + (Lifespan.starts Sample.restartedRun).countP
        fun s => (10 : ℚ) ≤ s ∧ s < 10 + 60) := by
  obtain ⟨p, hrun, hrows⟩ : ∃ p,
      Lifespan.Run Sample.lib Sample.cfg 1 (Lifespan.init 1 Sample.env 0) Sample.restartedRun p ∧
      Sample.statuses p.sys = [("m1", .sent), ("m2", .sending)] :=
    run_of_exec_map (f := fun p : Lifespan.Process => Sample.statuses p.sys) (by decide +kernel)
  exact ⟨p, hrun, hrows, by decide +kernel, by decide +kernel,
    (Lifespan.provider_throttled hrun).2.2 10⟩

/-- The second message is told to sleep for 50 seconds, and a turn after 50 seconds lets it
    through. -/
theorem acquire_wakes_restarted : ∃ p,
    Lifespan.Run Sample.lib Sample.cfg 1 (Lifespan.init 1 Sample.env 0)
      (Sample.waitedRun ++ .acquire "m2" 20 (.sleep 50) :: [] ++ [.acquire "m2" 70 .granted]) p ∧
    (50 : ℚ) ≤ 60 ∧ (20 + 50 ≤ (70 : ℚ) → RateLimiter.Turn.granted = .granted) := by
  obtain ⟨p, hrun, -⟩ : ∃ p,
      Lifespan.Run Sample.lib Sample.cfg 1 (Lifespan.init 1 Sample.env 0)
        (Sample.waitedRun ++ .acquire "m2" 20 (.sleep 50) :: [] ++
          [.acquire "m2" 70 .granted]) p ∧
      Sample.statuses p.sys = [("m1", .sent), ("m2", .sending)] :=
    run_of_exec_map (f := fun p : Lifespan.Process => Sample.statuses p.sys) (by decide +kernel)
  obtain ⟨-, -, hmax, hwakes, -⟩ :=
    Lifespan.acquire_wakes hrun fun l hl => absurd hl List.not_mem_nil
  exact ⟨p, hrun, hmax, hwakes⟩

end SmsRelay
