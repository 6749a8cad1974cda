import SmsRelay.ForStd.Run

/-!
# Parties that write once

A party shares its state with others.  Until it commits, its steps are quiet, that is they
write nothing; it commits once, with some outcome, and from then on it is quiet again.

## Key results

- `Run.once`: on every run such a party writes nothing, or commits once
- `Run.atMostOnce`: the rule for labels that do not occur twice
-/

namespace Transition

variable {σ α β : Type} {R Quiet : σ → α → σ → Prop} {Open : σ → Prop} {Closed : β → σ → Prop}
  {Commit : β → σ → α → σ → Prop} {s t : σ} {tr : List α}

/-- A run with one commit: quiet before it and after it. -/
structure CommitsOnce (Quiet : σ → α → σ → Prop) (Commit : β → σ → α → σ → Prop) (b : β)
    (s : σ) (tr : List α) (t : σ) : Prop where
  splits : ∃ tr₁ a tr₂ u v, tr = tr₁ ++ a :: tr₂ ∧ Run Quiet s tr₁ u ∧ Commit b u a v ∧
    Run Quiet v tr₂ t

/-- A quiet step more. -/
theorem CommitsOnce.snoc {a : α} {u : σ} {b : β} (h : CommitsOnce Quiet Commit b s tr t)
    (hstep : Quiet t a u) : CommitsOnce Quiet Commit b s (tr ++ [a]) u := by
  obtain ⟨tr₁, c, tr₂, v, w, rfl, hbefore, hcommit, hafter⟩ := h.splits
  exact ⟨tr₁, c, tr₂ ++ [a], v, w, by simp, hbefore, hcommit, hafter.snoc hstep⟩

/-- **A party that writes once**: while it is open its steps are quiet or its commit, which
    closes it; a closed party is quiet and stays closed. -/
theorem Run.once
    (hopen : ∀ s a t, Open s → R s a t →
      Quiet s a t ∧ Open t ∨ ∃ b, Commit b s a t ∧ Closed b t)
    (hclosed : ∀ b s a t, Closed b s → R s a t → Quiet s a t ∧ Closed b t)
    (hinit : Open s) (hrun : Run R s tr t) :
    Run Quiet s tr t ∧ Open t ∨ ∃ b, CommitsOnce Quiet Commit b s tr t ∧ Closed b t := by
  induction hrun with
  | nil => exact .inl ⟨.nil, hinit⟩
  | snoc _ hstep ih =>
    rcases ih with ⟨hquiet, ho⟩ | ⟨b, honce, hc⟩
    · rcases hopen _ _ _ ho hstep with ⟨hq, ho'⟩ | ⟨b, hcommit, hc⟩
      · exact .inl ⟨hquiet.snoc hq, ho'⟩
      · -- this is the commit
        exact .inr ⟨b, ⟨_, _, [], _, _, rfl, hquiet, hcommit, .nil⟩, hc⟩
    · obtain ⟨hq, hc'⟩ := hclosed b _ _ _ hc hstep
      exact .inr ⟨b, honce.snoc hq, hc'⟩

/-- A step that leads to `I` occurs at most once, when `I` lasts and keeps it out. -/
theorem Run.atMostOnce {p : α → Bool} {I J : σ → Prop} (hJ : ∀ s a t, J s → R s a t → J t)
    (hfirst : ∀ s a t, J s → R s a t → p a = true → I t)
    (hlast : ∀ s a t, J s → I s → R s a t → I t ∧ p a = false) (hinit : J s)
    (hrun : Run R s tr t) : tr.countP p ≤ 1 := by
  suffices h : J t ∧ (tr.countP p = 0 ∨ tr.countP p = 1 ∧ I t) by omega
  -- Induction on the run: from the first such step on, `I` holds
  induction hrun with
  | nil => exact ⟨hinit, .inl rfl⟩
  | snoc hrun hstep ih =>
    obtain ⟨hJt, hcount⟩ := ih
    refine ⟨hJ _ _ _ hJt hstep, ?_⟩
    rw [List.countP_append, List.countP_singleton]
    rcases hcount with hzero | ⟨hone, hI⟩
    · split
      · next hp => exact .inr ⟨by omega, hfirst _ _ _ hJt hstep hp⟩
      · exact .inl (by omega)
    · obtain ⟨hI', hp⟩ := hlast _ _ _ hJt hI hstep
      exact .inr ⟨by simp [hone, hp], hI'⟩

end Transition
