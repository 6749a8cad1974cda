import Mathlib.Order.Monotone.Basic
import SmsRelay.ForStd.Run

/-!
# Runs in time

What a run does before a step of some kind, how often it takes steps of some kind, and
what both mean on a clock.  Labels carry the readings of the clock that their steps have
made; a timing of a trace gives each step its moment, such that no step has read a later
time than its own.

## Key results

- `Run.until_or`, `Run.preceded`: the rule for "not before"
- `Preceded.not_before`: what comes after a reading comes at a later time
- `Run.waits`: both for a wait that only one kind of step ends
- `lastReading_snoc`, `countSteps_snoc`: one more step
-/

namespace Transition

variable {σ α : Type}

/-! ## Not before -/

/-- Every `Q` of the trace comes after some `P`. -/
def Preceded (P Q : α → Prop) (tr : List α) : Prop :=
  ∀ tr₁ a tr₂, tr = tr₁ ++ a :: tr₂ → Q a → ∃ b ∈ tr₁, P b

section
variable {R : σ → α → σ → Prop} {s t : σ} {tr : List α} {I : σ → Prop} {P Q : α → Prop}

/-- What only a `P` step ends lasts until there is one. -/
theorem Run.until_or (hstep : ∀ s a t, I s → R s a t → P a ∨ I t) (hinit : I s)
    (hrun : Run R s tr t) : (∃ a ∈ tr, P a) ∨ I t := by
  induction hrun with
  | nil => exact .inr hinit
  | snoc _ hlast ih =>
    rcases ih with ⟨b, hb, hP⟩ | hI
    · exact .inl ⟨b, List.mem_append_left _ hb, hP⟩
    · rcases hstep _ _ _ hI hlast with hP | hI'
      · exact .inl ⟨_, List.mem_append_right _ (List.mem_singleton.mpr rfl), hP⟩
      · exact .inr hI'

/-- If meanwhile there is no `Q` step, none comes before the first `P` step. -/
theorem Run.preceded (hstep : ∀ s a t, I s → R s a t → P a ∨ I t)
    (hnot : ∀ s a t, I s → R s a t → ¬ Q a) (hinit : I s) (hrun : Run R s tr t) :
    Preceded P Q tr := by
  rintro tr₁ a tr₂ rfl hQ
  obtain ⟨u, hrun₁, hrun₂⟩ := hrun.split
  obtain ⟨v, ha, -⟩ := hrun₂.cons_inv
  rcases Run.until_or hstep hinit hrun₁ with hP | hI
  · exact hP
  · exact absurd hQ (hnot _ _ _ hI ha)

end

/-! ## Clocks -/

section
variable {τ : Type} [Preorder τ] {reads : α → List τ} {tr : List α} {time : Nat → τ}
  {P Q : α → Prop}

/-- `time i` is the moment of step `i`: time does not run backwards, and what a step has
    read of the clock was not later. -/
structure Timing (reads : α → List τ) (tr : List α) (time : Nat → τ) : Prop where
  mono : Monotone time
  read : ∀ i a, tr[i]? = some a → ∀ r ∈ reads a, r ≤ time i

/-- **What comes after a reading comes at a later time.** -/
theorem Preceded.not_before {due : τ} (h : Preceded P Q tr) (ht : Timing reads tr time)
    (hP : ∀ b, P b → ∃ r ∈ reads b, due ≤ r) {i : Nat} {a : α} (ha : tr[i]? = some a)
    (hQ : Q a) : due ≤ time i := by
  obtain ⟨hi, rfl⟩ := List.getElem?_eq_some_iff.mp ha
  -- The step that has read the clock is one of the first `i`
  have hsplit : tr = tr.take i ++ tr[i] :: tr.drop (i + 1) := by
    rw [← List.drop_eq_getElem_cons, List.take_append_drop]
  obtain ⟨b, hb, hPb⟩ := h _ _ _ hsplit hQ
  obtain ⟨j, hj, rfl⟩ := List.mem_take_iff_getElem.mp hb
  obtain ⟨r, hr, hdue⟩ := hP _ hPb
  have hread : r ≤ time j :=
    ht.read j _ (List.getElem?_eq_getElem (by omega)) r hr
  have hle : j ≤ i := by omega
  exact hdue.trans (hread.trans (ht.mono hle))

/-- **A wait that only `P` ends**, in a run: without a `P` step it lasts, and what it does
    not let happen comes after one, at a later time. -/
theorem Run.waits {R : σ → α → σ → Prop} {W : σ → Prop} {s t : σ} {due : τ}
    (hrun : Run R s tr t) (hstep : ∀ s a t, W s → R s a t → P a ∨ W t)
    (hnot : ∀ s a t, W s → R s a t → ¬ Q a) (hP : ∀ b, P b → ∃ r ∈ reads b, due ≤ r)
    (hw : W s) : ((∀ a ∈ tr, ¬ P a) → W t) ∧ Preceded P Q tr ∧
      ∀ time, Timing reads tr time → ∀ i a, tr[i]? = some a → Q a → due ≤ time i := by
  have hpreceded : Preceded P Q tr := hrun.preceded hstep hnot hw
  refine ⟨fun hnone => ?_, hpreceded, fun time htime i a ha hQ => ?_⟩
  · rcases hrun.until_or hstep hw with ⟨a, ha, hPa⟩ | hlast
    · exact absurd hPa (hnone a ha)
    · exact hlast
  · exact hpreceded.not_before htime hP ha hQ

end

/-! ## What a trace has done -/

/-- The last reading of a kind. -/
def lastReading {τ : Type} (read : α → Option τ) (tr : List α) : Option τ :=
  (tr.filterMap read).getLast?

theorem lastReading_snoc {τ : Type} {read : α → Option τ} {tr : List α} {a : α} :
    lastReading read (tr ++ [a]) = (read a).or (lastReading read tr) := by
  unfold lastReading
  cases h : read a with
  | none => simp [h]
  | some r => simp [h]

/-- How many steps of the trace satisfy `p` in the state they are taken in. -/
def countSteps (step : σ → α → Option σ) (p : σ → α → Bool) : σ → List α → Nat
  | _, [] => 0
  | s, a :: tr =>
    (if p s a then 1 else 0) +
      match step s a with
      | some t => countSteps step p t tr
      | none => 0

/-- One more step. -/
theorem countSteps_snoc {step : σ → α → Option σ} {p : σ → α → Bool} {s t : σ} {tr : List α}
    {a : α} (hrun : Run (StepOf step) s tr t) :
    countSteps step p s (tr ++ [a]) = countSteps step p s tr + if p t a then 1 else 0 := by
  have hexec := exec_of_run hrun
  clear hrun
  induction tr generalizing s with
  | nil =>
    obtain rfl : s = t := by simpa [exec] using hexec
    simp only [List.nil_append, countSteps]
    cases step s a <;> simp
  | cons b tr ih =>
    obtain ⟨u, hu, hrest⟩ := Option.bind_eq_some_iff.mp hexec
    simp only [List.cons_append, countSteps, hu]
    rw [ih hrest]
    omega

/-- What is counted was counted before, or is the last step. -/
theorem countSteps_snoc_pos {step : σ → α → Option σ} {p : σ → α → Bool} {s t : σ} {tr : List α}
    {a : α} (hrun : Run (StepOf step) s tr t) (hpos : 0 < countSteps step p s (tr ++ [a])) :
    0 < countSteps step p s tr ∨ p t a = true := by
  rw [countSteps_snoc hrun] at hpos
  by_cases hp : p t a = true
  · exact .inr hp
  · rw [if_neg hp] at hpos
    exact .inl hpos

end Transition
