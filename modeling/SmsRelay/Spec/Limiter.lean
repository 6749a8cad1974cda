import Mathlib.Tactic.Linarith
import SmsRelay.ForStd.SlidingWindow
import SmsRelay.Native.RateLimiter

/-!
# What the rate limiter admits

The deque of `RateLimiter` against the list of all calls it ever let through.  It lacks
old calls only, so a turn sees in it exactly the calls of the last minute.

## Key results

- `limiterInv_step`: a turn keeps the deque in step with the calls let through
- `rate_limited`: no minute has more calls than the limit, and no call waits without need
-/

namespace SmsRelay.RateLimiter

open Transition SlidingWindow

/-- `N`: the calls a minute may have. -/
def limit (perMinute : Int) : Nat := (max 1 perMinute).toNat

theorem limit_pos (perMinute : Int) : 0 < limit perMinute := by
  unfold limit
  omega

/-- The outer loop drops what is a minute old. -/
theorem popOld_eq_expire (now : ℚ) (sent : List ℚ) : popOld now sent = expire 60 now sent := by
  induction sent with
  | nil => rfl
  | cons t sent ih => simp only [popOld, expire, ih]

/-- The deque and the clock, against the calls let through so far. -/
structure LimiterInv (perMinute : Int) (granted : List ℚ) (s : Shared) : Prop where
  limit_eq : s.limiter.perMinute = limit perMinute
  admitted : Admitted 60 (limit perMinute) granted
  past : ∀ g ∈ granted, g ≤ s.clock
  covers : Covers 60 s.clock s.limiter.sent granted
  length_le : s.limiter.sent.length ≤ limit perMinute
  quiet : ∀ caller, s.callers caller ≠ .raised

section
variable {perMinute : Int} {granted : List ℚ} {s t : Shared} {a : Act} {now : ℚ}

/-- A turn sees the calls of the last minute. -/
theorem LimiterInv.popOld_eq (h : LimiterInv perMinute granted s) (hclock : s.clock ≤ now) :
    popOld now s.limiter.sent = recent 60 now granted := by
  rw [popOld_eq_expire]
  exact (h.covers.later hclock).expire_eq h.admitted.sorted

/-- Nothing that was let through lies ahead. -/
theorem LimiterInv.le_now (h : LimiterInv perMinute granted s) (hclock : s.clock ≤ now) :
    ∀ g ∈ granted, g ≤ now := fun g hg => (h.past g hg).trans hclock

/-- **What a turn does**: it lets the call through while there is room in the last minute,
    and else asks for a sleep that takes time. -/
theorem LimiterInv.turn_cases (h : LimiterInv perMinute granted s) (hclock : s.clock ≤ now) :
    ((recent 60 now granted).length < limit perMinute ∧
      s.limiter.turn now =
        ({ s.limiter with sent := recent 60 now granted ++ [now] }, .granted)) ∨
    (limit perMinute ≤ (recent 60 now granted).length ∧ ∃ seconds, 0 < seconds ∧
      s.limiter.turn now =
        ({ s.limiter with sent := recent 60 now granted }, .sleep seconds)) := by
  have hsent := h.popOld_eq hclock
  unfold turn
  dsimp only
  rw [hsent, h.limit_eq]
  by_cases hroom : (recent 60 now granted).length < limit perMinute
  · rw [if_pos (by exact_mod_cast hroom)]
    exact .inl ⟨hroom, rfl⟩
  · rw [if_neg (by exact_mod_cast hroom)]
    refine .inr ⟨Nat.le_of_not_lt hroom, ?_⟩
    cases hrecent : recent 60 now granted with
    | nil =>
      -- an empty deque has room
      rw [hrecent] at hroom
      exact absurd (limit_pos perMinute) hroom
    | cons g rest =>
      refine ⟨max (1 / 10) (60 - (now - g)), ?_, rfl⟩
      exact lt_max_of_lt_left (by norm_num)

/-- **What a step does**: a turn at its time, which lets its caller through or to sleep. -/
theorem LimiterInv.step_cases (h : LimiterInv perMinute granted s) (hstep : step s a = some t) :
    s.clock ≤ a.now ∧ t.clock = a.now ∧ (∀ caller, t.callers caller ≠ .raised) ∧
      (((recent 60 a.now granted).length < limit perMinute ∧ a.turn = .granted ∧
          t.limiter = { s.limiter with sent := recent 60 a.now granted ++ [a.now] }) ∨
        ((∃ seconds, 0 < seconds ∧ a.turn = .sleep seconds) ∧
          t.limiter = { s.limiter with sent := recent 60 a.now granted })) := by
  unfold step at hstep
  split at hstep
  · next hturn =>
    obtain ⟨hclock, -, hend⟩ := hturn
    obtain rfl := Option.some.inj hstep
    -- of the callers only this one changes, and it does not raise
    have hquiet : ∀ turn, turn ≠ .indexError → ∀ caller,
        Function.update s.callers a.caller (Turn.caller a.now turn) caller ≠ .raised := by
      intro turn hne caller
      rcases eq_or_ne caller a.caller with rfl | hother
      · rw [Function.update_self]
        cases turn <;> simp_all [Turn.caller]
      · rw [Function.update_of_ne hother]
        exact h.quiet caller
    refine ⟨hclock, rfl, ?_, ?_⟩
    · apply hquiet
      rw [← hend]
      rcases h.turn_cases hclock with ⟨-, hcase⟩ | ⟨-, seconds, -, hcase⟩ <;> simp [hcase]
    · rcases h.turn_cases hclock with ⟨hroom, hcase⟩ | ⟨-, seconds, hpos, hcase⟩
      · rw [hcase] at hend ⊢
        exact .inl ⟨hroom, hend.symm, rfl⟩
      · rw [hcase] at hend ⊢
        exact .inr ⟨⟨seconds, hpos, hend.symm⟩, rfl⟩
  · cases hstep

/-- **A turn keeps the deque in step with the calls let through.** -/
theorem limiterInv_step (h : LimiterInv perMinute granted s) (hstep : step s a = some t) :
    LimiterInv perMinute (granted ++ grants [a]) t := by
  obtain ⟨hclock, hnow, hquiet, hcases⟩ := h.step_cases hstep
  have hcovers : Covers 60 a.now (recent 60 a.now granted) granted := by
    rw [← h.popOld_eq hclock, popOld_eq_expire]
    exact (h.covers.later hclock).dropOld
  rcases hcases with ⟨hroom, hturn, hlimiter⟩ | ⟨⟨seconds, -, hturn⟩, hlimiter⟩
  · -- the call is let through: it is the newest in the deque and in the list
    have hgrants : grants [a] = [a.now] := by simp [grants, hturn]
    rw [hgrants]
    refine
      { limit_eq := by rw [hlimiter]; exact h.limit_eq
        admitted := h.admitted.snoc (h.le_now hclock) hroom
        past := fun g hg => ?_
        covers := by rw [hnow, hlimiter]; exact hcovers.snoc a.now
        length_le := by
          rw [hlimiter]
          show (recent 60 a.now granted ++ [a.now]).length ≤ _
          rw [List.length_append, List.length_singleton]
          omega
        quiet := hquiet }
    rw [hnow]
    rcases List.mem_append.mp hg with hg | hg
    · exact h.le_now hclock g hg
    · exact le_of_eq (List.mem_singleton.mp hg)
  · -- the caller sleeps
    have hgrants : grants [a] = [] := by simp [grants, hturn]
    rw [hgrants, List.append_nil]
    refine
      { limit_eq := by rw [hlimiter]; exact h.limit_eq
        admitted := h.admitted
        past := by rw [hnow]; exact h.le_now hclock
        covers := by rw [hnow, hlimiter]; exact hcovers
        length_le := ?_
        quiet := hquiet }
    rw [hlimiter]
    show (recent 60 a.now granted).length ≤ _
    rw [← h.popOld_eq hclock, popOld_eq_expire]
    obtain ⟨dropped, heq, -⟩ := expire_split 60 a.now s.limiter.sent
    have hlen := congrArg List.length heq
    have hsize := h.length_le
    rw [List.length_append] at hlen
    omega

/-- A caller that takes a turn can be any caller, at any time from the last reading on. -/
theorem LimiterInv.exists_step (h : LimiterInv perMinute granted s) (caller : Nat)
    (hclock : s.clock ≤ now) :
    ∃ t, step s ⟨caller, now, (s.limiter.turn now).2⟩ = some t := by
  unfold step
  rw [if_pos ⟨hclock, h.quiet caller, rfl⟩]
  exact ⟨_, rfl⟩

end

section
variable {perMinute : Int} {clock : ℚ} {tr : List Act} {s : Shared}

theorem grants_append (tr₁ tr₂ : List Act) : grants (tr₁ ++ tr₂) = grants tr₁ ++ grants tr₂ :=
  List.filterMap_append

/-- The deque is in step with the calls along every run. -/
theorem limiterInv_run (hrun : Run perMinute clock tr s) :
    LimiterInv perMinute (grants tr) s := by
  refine hrun.traceInvariant (P := fun tr s => LimiterInv perMinute (grants tr) s) ?_ ?_
  · exact
      { limit_eq := by
          show max 1 perMinute = ((max 1 perMinute).toNat : Int)
          omega
        admitted := .nil
        past := fun g hg => absurd hg List.not_mem_nil
        covers := .nil 60 clock
        length_le := Nat.zero_le _
        quiet := fun caller h => by cases h }
  · intro tr s a t _ h hstep
    rw [grants_append]
    exact limiterInv_step h hstep

/-- **The limiter admits as much as the window allows**, and no less. -/
theorem rate_limited (hrun : Run perMinute clock tr s) :
    -- no minute has more calls than the limit
    (∀ x : ℚ, ((grants tr).countP fun g => x ≤ g ∧ g < x + 60) ≤ limit perMinute ∧
      ((grants tr).countP fun g => x < g ∧ g ≤ x + 60) ≤ limit perMinute) ∧
    -- a caller that finds room is let through at once
    (∀ caller now, s.clock ≤ now →
      ((grants tr).filter fun g => now - g < 60).length < limit perMinute →
        ∃ t, step s ⟨caller, now, .granted⟩ = some t) ∧
    -- the deque has the calls of the last minute, the oldest first
    (s.limiter.sent.Pairwise (· ≤ ·) ∧ s.limiter.sent.length ≤ limit perMinute ∧
      ∃ dropped, grants tr = dropped ++ s.limiter.sent ∧ ∀ g ∈ dropped, 60 ≤ s.clock - g) ∧
    -- a caller that is not let through sleeps for some time
    (∀ caller now, s.clock ≤ now → ∃ turn t, step s ⟨caller, now, turn⟩ = some t) ∧
    ∀ a t, step s a = some t → a.turn = .granted ∨ ∃ seconds, a.turn = .sleep seconds ∧
      0 < seconds := by
  have h := limiterInv_run hrun
  refine ⟨fun x => ⟨?_, ?_⟩, fun caller now hclock hroom => ?_, ⟨?_, h.length_le, h.covers⟩,
    fun caller now hclock => ⟨_, h.exists_step caller hclock⟩, fun a t hstep => ?_⟩
  · apply h.admitted.countP_le
    intro e e' he he'
    exact sub_lt_of_mem_Ico (of_decide_eq_true he) (of_decide_eq_true he')
  · apply h.admitted.countP_le
    intro e e' he he'
    exact sub_lt_of_mem_Ioc (of_decide_eq_true he) (of_decide_eq_true he')
  · obtain ⟨t, ht⟩ := h.exists_step caller hclock
    rcases h.turn_cases hclock with ⟨-, hcase⟩ | ⟨hfull, -⟩
    · rw [hcase] at ht
      exact ⟨t, ht⟩
    · exact absurd hroom (Nat.not_lt_of_le hfull)
  · obtain ⟨dropped, heq, -⟩ := h.covers
    have hsorted := h.admitted.sorted
    rw [heq] at hsorted
    exact (List.pairwise_append.mp hsorted).2.1
  · obtain ⟨-, -, -, ⟨-, hturn, -⟩ | ⟨⟨seconds, hpos, hturn⟩, -⟩⟩ := h.step_cases hstep
    · exact .inl hturn
    · exact .inr ⟨seconds, hturn, hpos⟩

end

namespace Sample

/-- Three callers under a limit of two: the third one waits, and is let through a minute
    after the first. -/
def threeCalls : List Act :=
  [⟨0, 0, .granted⟩, ⟨1, 1, .granted⟩, ⟨2, 2, .sleep 58⟩, ⟨2, 60, .granted⟩]

end Sample

/-- After the three calls the window has the last two, and a fourth caller finds no room
    before the next minute. -/
theorem rate_limited_threeCalls : ∃ s, Run 2 0 Sample.threeCalls s ∧
    s.limiter.sent = [1, 60] ∧
    ((grants Sample.threeCalls).countP fun g => (1 : ℚ) ≤ g ∧ g < 1 + 60) ≤ 2 ∧
    ∃ t, step s ⟨3, 61, .granted⟩ = some t := by
  have hexec : (exec step (Shared.new 2 0) Sample.threeCalls).map
      (fun s => (s.limiter.sent, s.clock)) = some ([1, 60], 60) := by
    decide +kernel
  obtain ⟨s, hrun, hsent⟩ := run_of_exec_map hexec
  obtain ⟨hsent, hclock⟩ := Prod.mk.inj hsent
  obtain ⟨hwindow, hroom, -⟩ := rate_limited hrun
  refine ⟨s, hrun, hsent, (hwindow 1).1, hroom 3 61 (by rw [hclock]; norm_num) ?_⟩
  decide +kernel

end SmsRelay.RateLimiter
