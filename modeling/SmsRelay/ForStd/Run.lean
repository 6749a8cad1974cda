import Mathlib.Logic.Relation
import Mathlib.Data.List.Basic

/-!
# Finite runs of labelled transition systems

A transition system is a relation `R : σ → α → σ → Prop` on states with labels.
`Run R s tr t` says that the labels of `tr`, taken one after the other, lead from
`s` to `t`.  The file gives composition and splitting of runs, the induction rules
for state invariants and for invariants that speak about the trace, and the bridge
from an executable step function.
-/

namespace Transition

variable {σ α : Type}

/-- A run from `s`.  It grows at the end, so an induction on it meets the last step
    first and the invariant of the shorter run is the induction hypothesis. -/
inductive Run (R : σ → α → σ → Prop) (s : σ) : List α → σ → Prop
  | nil : Run R s [] s
  | snoc {tr : List α} {t : σ} {a : α} {u : σ} :
      Run R s tr t → R t a u → Run R s (tr ++ [a]) u

/-- The steps of `R` whose source state and label satisfy `C`. -/
def Guarded (C : σ → α → Prop) (R : σ → α → σ → Prop) (s : σ) (a : α) (t : σ) : Prop :=
  C s a ∧ R s a t

namespace Run

variable {R R' : σ → α → σ → Prop} {s t u : σ} {tr tr₁ tr₂ : List α} {a : α}

/-- One step is a run. -/
theorem single (h : R s a t) : Run R s [a] t := by
  have h' : Run R s ([] ++ [a]) t := .snoc .nil h
  simpa using h'

/-- Runs compose. -/
theorem append (h₁ : Run R s tr₁ t) (h₂ : Run R t tr₂ u) : Run R s (tr₁ ++ tr₂) u := by
  induction h₂ with
  | nil => simpa using h₁
  | snoc _ hstep ih =>
    rw [← List.append_assoc]
    exact ih.snoc hstep

/-- A run over a concatenation passes through a state between the two parts. -/
theorem split (h : Run R s (tr₁ ++ tr₂) u) : ∃ t, Run R s tr₁ t ∧ Run R t tr₂ u := by
  -- Induction on the run, which removes labels from the end of `tr₂`
  generalize htr : tr₁ ++ tr₂ = tr at h
  induction h generalizing tr₂ with
  | nil =>
    obtain ⟨rfl, rfl⟩ := List.append_eq_nil_iff.mp htr
    exact ⟨s, .nil, .nil⟩
  | @snoc tr' t' a u' hrun hstep ih =>
    rcases List.eq_nil_or_concat tr₂ with rfl | ⟨tr₃, b, rfl⟩
    · -- `tr₂` is used up: the whole run belongs to `tr₁`
      rw [List.append_nil] at htr
      exact ⟨u', htr ▸ hrun.snoc hstep, .nil⟩
    · -- The last step belongs to `tr₂`
      rw [List.concat_eq_append, ← List.append_assoc] at htr
      obtain ⟨htr', hb⟩ := List.append_inj' htr rfl
      obtain ⟨m, h₁, h₂⟩ := ih htr'
      rw [List.cons.injEq] at hb
      rw [List.concat_eq_append, hb.1]
      exact ⟨m, h₁, h₂.snoc hstep⟩

/-- The empty run goes nowhere. -/
theorem nil_inv (h : Run R s [] t) : s = t := by
  generalize htr : ([] : List α) = tr at h
  cases h with
  | nil => rfl
  | snoc _ _ => simp at htr

/-- A run over `a :: tr` takes the step `a` first. -/
theorem cons_inv (h : Run R s (a :: tr) u) : ∃ t, R s a t ∧ Run R t tr u := by
  have h' : Run R s ([a] ++ tr) u := h
  obtain ⟨t, h₁, h₂⟩ := h'.split
  refine ⟨t, ?_, h₂⟩
  -- A run over `[a]` is one step: what stands before its last label is empty
  generalize htr : [a] = tr' at h₁
  cases h₁ with
  | nil => cases htr
  | @snoc tr'' t' b _ hrun hstep =>
    have hlen : tr''.length = 0 := by
      have := congrArg List.length htr
      simp at this
      simpa using this
    obtain rfl := List.eq_nil_of_length_eq_zero hlen
    obtain rfl : a = b := by simpa using htr
    rw [hrun.nil_inv]
    exact hstep

/-- Every label of a run was a step taken on the way. -/
theorem of_mem (h : Run R s tr t) (ha : a ∈ tr) : ∃ tr₁ tr₂ u v, tr = tr₁ ++ a :: tr₂ ∧
    Run R s tr₁ u ∧ R u a v ∧ Run R v tr₂ t := by
  obtain ⟨tr₁, tr₂, rfl⟩ := List.append_of_mem ha
  obtain ⟨u, h₁, h₂⟩ := h.split
  obtain ⟨v, hstep, h₃⟩ := h₂.cons_inv
  exact ⟨tr₁, tr₂, u, v, rfl, h₁, hstep, h₃⟩

/-- Runs are monotone in the step relation. -/
theorem mono (h : ∀ s a t, R s a t → R' s a t) (hrun : Run R s tr t) : Run R' s tr t := by
  induction hrun with
  | nil => exact .nil
  | snoc _ hstep ih => exact ih.snoc (h _ _ _ hstep)

/-- A guarded run is a run. -/
theorem unguard {C : σ → α → Prop} (hrun : Run (Guarded C R) s tr t) : Run R s tr t :=
  hrun.mono fun _ _ _ h => h.2

/-- The invariant rule: what holds at the start and is kept by every step holds at
    the end of every run. -/
theorem invariant {I : σ → Prop} (hstep : ∀ s a t, I s → R s a t → I t)
    (hinit : I s) (hrun : Run R s tr t) : I t := by
  induction hrun with
  | nil => exact hinit
  | snoc _ h ih => exact hstep _ _ _ ih h

/-- The invariant rule for properties of the trace so far and the state reached. -/
theorem traceInvariant {P : List α → σ → Prop} (hinit : P [] s)
    (hstep : ∀ tr t a u, Run R s tr t → P tr t → R t a u → P (tr ++ [a]) u)
    (hrun : Run R s tr t) : P tr t := by
  induction hrun with
  | nil => exact hinit
  | snoc hrun h ih => exact hstep _ _ _ _ hrun ih h

/-- The potential rule.  A step may move an amount from `high` to `low`, a step with a `P`
    label uses one up, and one with a `Q` label brings one back; so it goes for the run. -/
theorem countP_potential {I : σ → Prop} {P Q : α → Bool} (high low : σ → Nat)
    (hstep : ∀ s a t, I s → R s a t → I t ∧
      high t + low s + (if P a = true then 1 else 0) ≤
        high s + low t + (if Q a = true then 1 else 0))
    (hinit : I s) (hrun : Run R s tr t) :
    I t ∧ high t + low s + tr.countP P ≤ high s + low t + tr.countP Q := by
  induction hrun with
  | nil => exact ⟨hinit, Nat.le_refl _⟩
  | snoc _ h ih =>
    obtain ⟨hI, hpotential⟩ := hstep _ _ _ ih.1 h
    refine ⟨hI, ?_⟩
    rw [List.countP_append, List.countP_singleton, List.countP_append, List.countP_singleton]
    have hsofar := ih.2
    omega

/-- The ranking rule: when no step raises the rank, and a step with a `P` label lowers it, a
    run has no more of these labels than the rank comes down by. -/
theorem countP_le_rank {I : σ → Prop} {P : α → Bool} (rank : σ → Nat)
    (hstep : ∀ s a t, I s → R s a t → I t ∧ rank t + (if P a = true then 1 else 0) ≤ rank s)
    (hinit : I s) (hrun : Run R s tr t) : I t ∧ rank t + tr.countP P ≤ rank s := by
  have hpotential := hrun.countP_potential (P := P) (Q := fun _ => false) rank (fun _ => 0)
    (fun s a t hs h => by simpa using hstep s a t hs h) hinit
  simpa using hpotential

/-- A run all of whose labels satisfy `P` is a guarded run. -/
theorem guard {P : α → Prop} (hrun : Run R s tr t) (hP : ∀ a ∈ tr, P a) :
    Run (Guarded (fun _ a => P a) R) s tr t := by
  induction hrun with
  | nil => exact .nil
  | snoc _ h ih =>
    exact (ih fun a ha => hP a (by simp [ha])).snoc ⟨hP _ (by simp), h⟩

/-- If, whenever a `P` label is already in the trace, no `Q` label can be taken next,
    then in every run no `Q` label stands after a `P` label. -/
theorem pairwise_never {P Q : α → Prop}
    (hstep : ∀ tr t a u, Run R s tr t → R t a u → Q a → ∀ b ∈ tr, ¬ P b)
    (hrun : Run R s tr t) : tr.Pairwise fun b a => P b → ¬ Q a := by
  induction hrun with
  | nil => exact .nil
  | @snoc tr' t' a u' hrun h ih =>
    refine List.pairwise_append.mpr ⟨ih, List.pairwise_singleton _ _, ?_⟩
    intro b hb c hc hPb hQc
    obtain rfl := List.mem_singleton.mp hc
    exact hstep _ _ _ _ hrun h hQc b hb hPb

/-- A label that cannot come twice stands at one place of the trace. -/
theorem position_unique {P : α → Prop} {tr₁' tr₂' : List α} {b : α}
    (h : (tr₁ ++ a :: tr₂).Pairwise fun b a => P b → ¬ P a)
    (heq : tr₁ ++ a :: tr₂ = tr₁' ++ b :: tr₂') (ha : P a) (hb : P b) :
    tr₁ = tr₁' ∧ a = b ∧ tr₂ = tr₂' := by
  induction tr₁ generalizing tr₁' with
  | nil =>
    cases tr₁' with
    | nil =>
      obtain ⟨rfl, rfl⟩ := List.cons.inj heq
      exact ⟨rfl, rfl, rfl⟩
    | cons c tr₁' =>
      -- `b` comes later than `a`
      obtain ⟨rfl, rfl⟩ := List.cons.inj heq
      exact absurd hb (List.rel_of_pairwise_cons h (by simp) ha)
  | cons c tr₁ ih =>
    cases tr₁' with
    | nil =>
      -- `a` comes later than `b`
      obtain ⟨rfl, -⟩ := List.cons.inj heq
      exact absurd ha (List.rel_of_pairwise_cons h (by simp) hb)
    | cons d tr₁' =>
      obtain ⟨rfl, htail⟩ := List.cons.inj heq
      obtain ⟨rfl, rfl, rfl⟩ := ih h.tail htail
      exact ⟨rfl, rfl, rfl⟩

/-- On its way the run `tr` from `s` was in a state with `P`. -/
def Passed (R : σ → α → σ → Prop) (s : σ) (tr : List α) (P : σ → Prop) : Prop :=
  ∃ tr₁ tr₂ u, tr = tr₁ ++ tr₂ ∧ Run R s tr₁ u ∧ P u

section Passed

variable {P Q : σ → Prop}

/-- A run passes the state it ends in. -/
theorem passed_last (h : Run R s tr t) (hP : P t) : Passed R s tr P :=
  ⟨tr, [], t, by simp, h, hP⟩

/-- A longer run passes what a shorter one did. -/
theorem Passed.extend (h : Passed R s tr P) (tr' : List α) : Passed R s (tr ++ tr') P := by
  obtain ⟨tr₁, tr₂, u, rfl, hrun, hP⟩ := h
  exact ⟨tr₁, tr₂ ++ tr', u, by simp, hrun, hP⟩

theorem Passed.imp (h : Passed R s tr P) (hPQ : ∀ u, P u → Q u) : Passed R s tr Q := by
  obtain ⟨tr₁, tr₂, u, rfl, hrun, hP⟩ := h
  exact ⟨tr₁, tr₂, u, rfl, hrun, hPQ u hP⟩

end Passed

end Run

/-! ## Executable systems -/

/-- The relation of a partial step function. -/
def StepOf (step : σ → α → Option σ) (s : σ) (a : α) (t : σ) : Prop := step s a = some t

/-- The trace of a run of an executable system determines where it ends. -/
theorem run_unique {step : σ → α → Option σ} {s t t' : σ} {tr : List α}
    (h : Run (StepOf step) s tr t) (h' : Run (StepOf step) s tr t') : t = t' := by
  induction h generalizing t' with
  | nil => exact h'.nil_inv
  | @snoc tr u a t _ hstep ih =>
    obtain ⟨u', hrun, hlast⟩ := h'.split
    obtain ⟨v, hstep', hnil⟩ := hlast.cons_inv
    obtain rfl := ih hrun
    obtain rfl : t = v := Option.some.inj (hstep.symm.trans hstep')
    exact hnil.nil_inv

/-- A run over a longer trace goes on from the state in which a shorter run ends. -/
theorem run_rest {step : σ → α → Option σ} {s t u : σ} {tr₁ tr₂ : List α}
    (h : Run (StepOf step) s (tr₁ ++ tr₂) u) (h₁ : Run (StepOf step) s tr₁ t) :
    Run (StepOf step) t tr₂ u := by
  obtain ⟨t', h₁', h₂⟩ := h.split
  rwa [run_unique h₁ h₁']

/-- Of two states that a run passes, one comes first and a run leads to the other. -/
theorem Run.Passed.total {step : σ → α → Option σ} {s : σ} {tr : List α} {P Q : σ → Prop}
    (hP : Run.Passed (StepOf step) s tr P) (hQ : Run.Passed (StepOf step) s tr Q) :
    (∃ tr₁ tr₂ u v, Run (StepOf step) s tr₁ u ∧ Run (StepOf step) u tr₂ v ∧ P u ∧ Q v) ∨
      ∃ tr₁ tr₂ u v, Run (StepOf step) s tr₁ u ∧ Run (StepOf step) u tr₂ v ∧ Q u ∧ P v := by
  obtain ⟨tr₁, tr₁', u, rfl, hu, hPu⟩ := hP
  obtain ⟨tr₂, tr₂', v, heq, hv, hQv⟩ := hQ
  -- Case split on which of the two prefixes is the longer one
  rcases List.append_eq_append_iff.mp heq with ⟨tr₃, rfl, -⟩ | ⟨tr₃, rfl, -⟩
  · exact .inl ⟨tr₁, tr₃, u, v, hu, run_rest hv hu, hPu, hQv⟩
  · exact .inr ⟨tr₂, tr₃, v, u, hv, run_rest hu hv, hQv, hPu⟩

/-- Take the labels of `tr` one after another. -/
def exec (step : σ → α → Option σ) (s : σ) : List α → Option σ
  | [] => some s
  | a :: tr => (step s a).bind fun t => exec step t tr

/-- What `exec` computes is a run. -/
theorem run_of_exec {step : σ → α → Option σ} {s t : σ} {tr : List α}
    (h : exec step s tr = some t) : Run (StepOf step) s tr t := by
  induction tr generalizing s with
  | nil =>
    obtain rfl : s = t := by simpa [exec] using h
    exact .nil
  | cons a tr ih =>
    obtain ⟨m, hm, ht⟩ := Option.bind_eq_some_iff.mp h
    exact (Run.single (R := StepOf step) hm).append (ih ht)

/-- A replay goes on from where a shorter one ends. -/
theorem exec_append {step : σ → α → Option σ} {s : σ} {tr₁ tr₂ : List α} :
    exec step s (tr₁ ++ tr₂) = (exec step s tr₁).bind fun t => exec step t tr₂ := by
  induction tr₁ generalizing s with
  | nil => rfl
  | cons a tr ih => cases h : step s a <;> simp [exec, h, ih]

/-- A run can be replayed. -/
theorem exec_of_run {step : σ → α → Option σ} {s t : σ} {tr : List α}
    (h : Run (StepOf step) s tr t) : exec step s tr = some t := by
  induction h with
  | nil => rfl
  | @snoc tr u a t _ hstep ih =>
    have hlast : step u a = some t := hstep
    rw [exec_append, ih]
    simp [exec, hlast]

/-- When the labels of a trace move only the component `f` of the state, a replay of the
    system is a replay of the component.  `Ok` is what the labels to come rely on. -/
theorem exec_project {τ β : Type} {step : σ → α → Option σ} {move : τ → β → Option τ}
    (f : σ → τ) {e : β → α} (Ok : σ → List β → Prop)
    (h : ∀ s b bs, Ok s (b :: bs) → (step s (e b)).map f = move (f s) b ∧
      ∀ t, step s (e b) = some t → Ok t bs)
    {s : σ} {bs : List β} (hs : Ok s bs) :
    (exec step s (bs.map e)).map f = exec move (f s) bs := by
  -- on the labels; `Ok` is passed along with the state
  induction bs generalizing s with
  | nil => rfl
  | cons b bs ih =>
    obtain ⟨hmove, hok⟩ := h s b bs hs
    simp only [List.map_cons, exec, ← hmove]
    cases hstep : step s (e b) with
    | none => rfl
    | some t =>
      simp only [Option.bind_some, Option.map_some]
      exact ih (hok t hstep)

/-- A replay that stops where the guard fails gives a guarded run. -/
theorem guarded_of_exec {step : σ → α → Option σ} {C : σ → α → Prop}
    [∀ s a, Decidable (C s a)] {s t : σ} {tr : List α}
    (h : exec (fun s a => if C s a then step s a else none) s tr = some t) :
    Run (Guarded C (StepOf step)) s tr t := by
  refine (run_of_exec h).mono fun u a v huv => ?_
  have huv' : (if C u a then step u a else none) = some v := huv
  split at huv'
  · next hguard => exact ⟨hguard, huv'⟩
  · cases huv'

/-- There is a run that ends in a state with a given component exactly when the replay
    gives the component. -/
theorem exists_run_iff {β : Type} {step : σ → α → Option σ} {s : σ} {tr : List α} {f : σ → β}
    {b : β} : (∃ t, Run (StepOf step) s tr t ∧ f t = b) ↔ (exec step s tr).map f = some b := by
  constructor
  · rintro ⟨t, hrun, rfl⟩
    rw [exec_of_run hrun]
    rfl
  · intro h
    obtain ⟨t, ht, hb⟩ := Option.map_eq_some_iff.mp h
    exact ⟨t, run_of_exec ht, hb⟩

/-- Replay a trace and look at the state it ends in. -/
theorem run_of_exec_map {β : Type} {step : σ → α → Option σ} {s : σ} {tr : List α}
    {f : σ → β} {b : β} (h : (exec step s tr).map f = some b) :
    ∃ t, Run (StepOf step) s tr t ∧ f t = b := exists_run_iff.mpr h

/-- Replay a trace and look at two states on the way. -/
theorem run_of_exec_map₂ {β : Type} {step : σ → α → Option σ} {s : σ} {tr₁ tr₂ : List α}
    {f : σ → β} {b c : β} (h₁ : (exec step s tr₁).map f = some b)
    (h₂ : (exec step s (tr₁ ++ tr₂)).map f = some c) :
    ∃ t u, Run (StepOf step) s tr₁ t ∧ Run (StepOf step) t tr₂ u ∧ f t = b ∧ f u = c := by
  obtain ⟨t, hrun, ht⟩ := run_of_exec_map h₁
  obtain ⟨u, hrun', hu⟩ := run_of_exec_map h₂
  exact ⟨t, u, hrun, run_rest hrun' hrun, ht, hu⟩

end Transition
