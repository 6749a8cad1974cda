import Mathlib.Algebra.Order.Group.Defs
import Mathlib.Algebra.Order.Sub.Basic
import Mathlib.Data.List.Basic
import Mathlib.Order.Interval.Set.Defs

/-!
# Events in a sliding window

Events happen at times, oldest first.  A limiter that admits an event only while fewer
than `n` of the events before it are less than `w` old keeps every window of length `w`
at `n` events or fewer, not only the windows that end at an event.  It needs to remember
the recent events only: what is dropped from the front of the list is old for good.

`recent` are the events a window counts, `expire` drops the old ones from the front,
`Admitted` are the event lists a limiter lets happen, and `Covers` relates what is
remembered to what has happened.  `Restarted` are the event lists of a limiter that is
started anew at times, without a memory of what it has admitted.
-/

namespace SlidingWindow

variable {α : Type} [AddCommGroup α] [LinearOrder α]

/-- The events that are less than `w` old at `now`. -/
def recent (w now : α) (events : List α) : List α := events.filter fun e => now - e < w

/-- Drop the events from the front that are `w` old at `now`, up to the first that is not. -/
def expire (w now : α) : List α → List α
  | [] => []
  | e :: events => if w ≤ now - e then expire w now events else e :: events

/-- The event lists of a limiter: each event comes last and while fewer than `n` are recent. -/
inductive Admitted (w : α) (n : Nat) : List α → Prop
  | nil : Admitted w n []
  | snoc {events : List α} {now : α} : Admitted w n events → (∀ e ∈ events, e ≤ now) →
      (recent w now events).length < n → Admitted w n (events ++ [now])

/-- At the time `now`, the list `kept` has all recent events: it lacks old ones only. -/
def Covers (w now : α) (kept events : List α) : Prop :=
  ∃ dropped, events = dropped ++ kept ∧ ∀ e ∈ dropped, w ≤ now - e

/-- The event lists of a limiter that is started anew at the times `starts`: `past` has the
    events up to the last start, `current` those since then, and it counts the latter only. -/
inductive Restarted (w : α) (n : Nat) : (starts past current : List α) → Prop
  | nil : Restarted w n [] [] []
  | start {starts past current : List α} {now : α} : Restarted w n starts past current →
      (∀ s ∈ starts, s ≤ now) → (∀ e ∈ past ++ current, e ≤ now) →
      Restarted w n (starts ++ [now]) (past ++ current) []
  | event {starts past current : List α} {now : α} : Restarted w n starts past current →
      (∀ s ∈ starts, s ≤ now) → (∀ e ∈ past ++ current, e ≤ now) →
      (recent w now current).length < n → Restarted w n starts past (current ++ [now])

section
variable {w now : α} {n : Nat} {events kept : List α}

/-- What is dropped and what stays, put together again. -/
theorem expire_split (w now : α) (events : List α) :
    ∃ dropped, events = dropped ++ expire w now events ∧ ∀ e ∈ dropped, w ≤ now - e := by
  induction events with
  | nil => exact ⟨[], rfl, fun e he => absurd he List.not_mem_nil⟩
  | cons e events ih =>
    unfold expire
    split
    · next hold =>
      obtain ⟨dropped, heq, hdropped⟩ := ih
      refine ⟨e :: dropped, by rw [List.cons_append, ← heq], ?_⟩
      intro e' he'
      rcases List.mem_cons.mp he' with rfl | he'
      · exact hold
      · exact hdropped e' he'
    · exact ⟨[], rfl, fun e he => absurd he List.not_mem_nil⟩

theorem Admitted.sorted (h : Admitted w n events) : events.Pairwise (· ≤ ·) := by
  induction h with
  | nil => exact .nil
  | @snoc events now _ hle _ ih =>
    refine List.pairwise_append.mpr ⟨ih, List.pairwise_singleton _ _, fun e he e' he' => ?_⟩
    rw [List.mem_singleton.mp he']
    exact hle e he

/-- **At most `n` events in any window**: of the events that are pairwise less than `w`
    apart, `n` at most were admitted. -/
theorem Admitted.countP_le (h : Admitted w n events) {p : α → Bool}
    (hp : ∀ e e', p e = true → p e' = true → e' - e < w) : events.countP p ≤ n := by
  induction h with
  | nil => exact Nat.zero_le n
  | @snoc events now _ _ hroom ih =>
    rw [List.countP_append, List.countP_singleton]
    by_cases hnow : p now = true
    · -- The other events of the window are recent at `now`
      have hrecent : events.countP p ≤ (recent w now events).length := by
        rw [recent, ← List.countP_eq_length_filter]
        apply List.countP_mono_left
        intro e _ he
        exact decide_eq_true (hp e now he hnow)
      rw [if_pos hnow]
      omega
    · rw [if_neg hnow]
      exact ih

theorem Covers.nil (w now : α) : Covers w now [] [] :=
  ⟨[], rfl, fun _ he => absurd he List.not_mem_nil⟩

/-- A new event is kept. -/
theorem Covers.snoc (h : Covers w now kept events) (e : α) :
    Covers w now (kept ++ [e]) (events ++ [e]) := by
  obtain ⟨dropped, rfl, hold⟩ := h
  exact ⟨dropped, by rw [List.append_assoc], hold⟩

/-- Expiry drops old events only. -/
theorem Covers.dropOld (h : Covers w now kept events) :
    Covers w now (expire w now kept) events := by
  obtain ⟨dropped, rfl, hold⟩ := h
  obtain ⟨dropped', heq, hold'⟩ := expire_split w now kept
  refine ⟨dropped ++ dropped', by rw [List.append_assoc, ← heq], fun e he => ?_⟩
  rcases List.mem_append.mp he with he | he
  · exact hold e he
  · exact hold' e he

/-- A recent event is kept. -/
theorem Covers.mem (h : Covers w now kept events) {e : α} (he : e ∈ events)
    (hnew : now - e < w) : e ∈ kept := by
  obtain ⟨dropped, rfl, hold⟩ := h
  rcases List.mem_append.mp he with he | he
  · exact absurd hnew (not_lt_of_ge (hold e he))
  · exact he

end

section
variable [IsOrderedAddMonoid α] {w now : α} {n : Nat} {events kept : List α}

/-- What is old stays old. -/
theorem Covers.later (h : Covers w now kept events) {later : α} (hle : now ≤ later) :
    Covers w later kept events := by
  obtain ⟨dropped, heq, hold⟩ := h
  exact ⟨dropped, heq, fun e he => (hold e he).trans (sub_le_sub_right hle e)⟩

/-- In a sorted list, expiry from the front drops every old event. -/
theorem expire_eq_recent (hsorted : events.Pairwise (· ≤ ·)) :
    expire w now events = recent w now events := by
  induction events with
  | nil => rfl
  | cons e events ih =>
    obtain ⟨hle, hsorted⟩ := List.pairwise_cons.mp hsorted
    unfold expire
    split
    · next hold =>
      rw [ih hsorted, recent, recent, List.filter_cons_of_neg]
      simpa using hold
    · next hnew =>
      -- the events after `e` are not older than `e`
      have hall : ∀ e' ∈ e :: events, decide (now - e' < w) = true := by
        intro e' he'
        apply decide_eq_true
        rcases List.mem_cons.mp he' with rfl | he'
        · exact lt_of_not_ge hnew
        · exact (sub_le_sub_left (hle e' he') now).trans_lt (lt_of_not_ge hnew)
      exact (List.filter_eq_self.mpr hall).symm

/-- **What is kept says how many events are recent.** -/
theorem Covers.expire_eq (h : Covers w now kept events)
    (hsorted : events.Pairwise (· ≤ ·)) : expire w now kept = recent w now events := by
  obtain ⟨dropped, rfl, hold⟩ := h
  have hnone : recent w now dropped = [] := by
    rw [recent, List.filter_eq_nil_iff]
    intro e he
    simpa using hold e he
  have happend : recent w now (dropped ++ kept) = recent w now dropped ++ recent w now kept :=
    List.filter_append ..
  rw [expire_eq_recent (List.pairwise_append.mp hsorted).2.1, happend, hnone, List.nil_append]

/-- Two points of a half-open interval of length `w`, closed on the left. -/
theorem sub_lt_of_mem_Ico {x e e' : α} (he : e ∈ Set.Ico x (x + w)) (he' : e' ∈ Set.Ico x (x + w)) :
    e' - e < w := by
  have hlt : e' < w + e := he'.2.trans_le (by rw [add_comm]; exact add_le_add_right he.1 w)
  exact sub_lt_iff_lt_add.mpr hlt

/-- Two points of a half-open interval of length `w`, closed on the right. -/
theorem sub_lt_of_mem_Ioc {x e e' : α} (he : e ∈ Set.Ioc x (x + w)) (he' : e' ∈ Set.Ioc x (x + w)) :
    e' - e < w := by
  have hlt : e' < w + e := he'.2.trans_lt (by rw [add_comm]; exact add_lt_add_right he.1 w)
  exact sub_lt_iff_lt_add.mpr hlt

end

/-! ## Restarts -/

section
variable {w : α} {n : Nat} {starts past current : List α}

/-- Since its last start it is a limiter like any other. -/
theorem Restarted.admitted (h : Restarted w n starts past current) : Admitted w n current := by
  induction h with
  | nil => exact .nil
  | start => exact .nil
  | event _ _ hle hroom ih =>
    exact ih.snoc (fun e he => hle e (List.mem_append_right _ he)) hroom

/-- The events come in order, over all starts. -/
theorem Restarted.sorted (h : Restarted w n starts past current) :
    (past ++ current).Pairwise (· ≤ ·) := by
  induction h with
  | nil => exact .nil
  | start _ _ _ ih => rwa [List.append_nil]
  | @event starts past current now _ _ hle _ ih =>
    rw [← List.append_assoc]
    refine List.pairwise_append.mpr ⟨ih, List.pairwise_singleton _ _, fun e he e' he' => ?_⟩
    rw [List.mem_singleton.mp he']
    exact hle e he

variable [IsOrderedAddMonoid α]

theorem Admitted.countP_window_le {events : List α} (h : Admitted w n events) (x : α) :
    events.countP (fun e => x ≤ e ∧ e < x + w) ≤ n := by
  apply h.countP_le
  intro e e' he he'
  have hmem : x ≤ e ∧ e < x + w := of_decide_eq_true he
  have hmem' : x ≤ e' ∧ e' < x + w := of_decide_eq_true he'
  exact sub_lt_of_mem_Ico hmem hmem'

/-- The events of a window before the last start: none more than the starts in the window
    allow, unless the last start is after the window. -/
private theorem Restarted.past_le (h : Restarted w n starts past current) (x : α) :
    past.countP (fun e => x ≤ e ∧ e < x + w) ≤ n * starts.countP (fun s => x ≤ s ∧ s < x + w) ∨
    (∃ s ∈ starts, x + w ≤ s) ∧ current.countP (fun e => x ≤ e ∧ e < x + w) = 0 ∧
      past.countP (fun e => x ≤ e ∧ e < x + w) ≤
        n * (1 + starts.countP (fun s => x ≤ s ∧ s < x + w)) := by
  induction h with
  | nil => exact .inl (Nat.zero_le _)
  | @start starts past current now h hstarts hle ih =>
    -- what the window has of both parts before this start
    have htotal : (past ++ current).countP (fun e => x ≤ e ∧ e < x + w) ≤
        n * (1 + starts.countP (fun s => x ≤ s ∧ s < x + w)) := by
      have hcurrent := h.admitted.countP_window_le x
      rw [List.countP_append, Nat.mul_add, Nat.mul_one]
      rw [Nat.mul_add, Nat.mul_one] at ih
      omega
    have hstart : (starts ++ [now]).countP (fun s => x ≤ s ∧ s < x + w) =
        starts.countP (fun s => x ≤ s ∧ s < x + w) + if x ≤ now ∧ now < x + w then 1 else 0 := by
      simp [List.countP_append, List.countP_singleton]
    rw [hstart]
    by_cases hbefore : now < x
    · -- before the window nothing has happened in it
      left
      have hnone : (past ++ current).countP (fun e => x ≤ e ∧ e < x + w) = 0 := by
        rw [List.countP_eq_zero]
        intro e he hwindow
        exact absurd ((of_decide_eq_true hwindow).1.trans (hle e he)) (not_le_of_gt hbefore)
      rw [hnone]
      exact Nat.zero_le _
    · by_cases hafter : now < x + w
      · left
        rw [if_pos ⟨le_of_not_gt hbefore, hafter⟩, Nat.add_comm _ 1]
        exact htotal
      · right
        refine ⟨⟨now, by simp, le_of_not_gt hafter⟩, rfl, ?_⟩
        rw [if_neg (fun h => hafter h.2), Nat.add_zero]
        exact htotal
  | @event starts past current now h hstarts hle hroom ih =>
    obtain hpast | ⟨⟨s, hs, hlate⟩, hnone, hpast⟩ := ih
    · exact .inl hpast
    · refine .inr ⟨⟨s, hs, hlate⟩, ?_, hpast⟩
      have hnow : ¬ decide (x ≤ now ∧ now < x + w) = true := fun h =>
        absurd (of_decide_eq_true h).2 (not_lt_of_ge (hlate.trans (hstarts s hs)))
      rw [List.countP_append, hnone, List.countP_singleton, if_neg hnow]

/-- **A window has at most `n` events more for each start in it.** -/
theorem Restarted.countP_le (h : Restarted w n starts past current) (x : α) :
    (past ++ current).countP (fun e => x ≤ e ∧ e < x + w) ≤
      n * (1 + starts.countP (fun s => x ≤ s ∧ s < x + w)) := by
  have hcurrent := h.admitted.countP_window_le x
  have hpast := h.past_le x
  rw [List.countP_append, Nat.mul_add, Nat.mul_one]
  rw [Nat.mul_add, Nat.mul_one] at hpast
  omega

end

end SlidingWindow
