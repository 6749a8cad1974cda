import SmsRelay.ForStd.Run

/-!
# Scripts that may be cut off and run again

A script works on a durable store, one step after the other.  What it has done so far may
be committed at any moment; a crash loses the rest, and the script starts from the
beginning on what was committed.

A script *approaches* a target when its steps leave the target of the store as it is and
the store is its own target once the script is done.  Then it does not matter how often it
was cut off, and where.

## Key results

- `Approaches.run`: in no state of a run has the target of the committed store changed
- `Approaches.finish`: a completed script commits the target of the store it started from
- `Approaches.stable`: on its own target, the script changes nothing
- `Approaches.exists_finish`: a script that never gets stuck can always be completed
-/

namespace Restart

open Transition

variable {π δ : Type}

/-- A script with program points `π` over stores `δ`. -/
structure Script (π δ : Type) where
  start : π
  /-- `none` when the script is done, or raises. -/
  step : π → δ → Option (δ × π)
  isDone : π → Bool

/-- What is on disk, and what a connection sees; `pc` is `none` while no script runs. -/
structure State (π δ : Type) where
  committed : δ
  working : δ
  pc : Option π

/-- No script runs on the store. -/
def State.idle (d : δ) : State π δ := ⟨d, d, none⟩

inductive Act where
  /-- The script is started. -/
  | start
  /-- The script takes a step. -/
  | step
  /-- What the script has done so far is committed. -/
  | commit
  /-- The script ends, and what it did is committed. -/
  | finish
  /-- The process dies, or the script raises: what was not committed is lost. -/
  | crash
  deriving DecidableEq, Repr

/-- One step of a script that may be cut off. -/
def Script.next (c : Script π δ) (s : State π δ) : Act → Option (State π δ)
  | .start => if s.pc.isNone then some ⟨s.committed, s.committed, some c.start⟩ else none
  | .step => s.pc.bind fun p => (c.step p s.working).map fun (d, p') => ⟨s.committed, d, some p'⟩
  | .commit => s.pc.map fun p => ⟨s.working, s.working, some p⟩
  | .finish => s.pc.bind fun p => if c.isDone p then some (.idle s.working) else none
  | .crash => some (.idle s.committed)

/-- `J` holds of the store at each program point of the script, and `target` is what the
    script makes of a store. -/
structure Approaches (c : Script π δ) (J : π → δ → Prop) (target : δ → δ) : Prop where
  start : ∀ d, J c.start d
  step : ∀ p d d' p', J p d → c.step p d = some (d', p') → J p' d' ∧ target d' = target d
  /-- A store that is its own target is left alone. -/
  still : ∀ p d d' p', J p d → c.step p d = some (d', p') → target d = d → d' = d
  done : ∀ p d, J p d → c.isDone p = true → target d = d

section
variable {c : Script π δ} {J : π → δ → Prop} {target : δ → δ} {d : δ} {s t u : State π δ}
  {tr tr' : List Act}

/-- `I` holds of both copies of the store, and `J` at the program point. -/
structure Keeps (J : π → δ → Prop) (I : δ → Prop) (s : State π δ) : Prop where
  committed : I s.committed
  working : I s.working
  point : ∀ p, s.pc = some p → J p s.working

/-- A fact about stores that the steps of the script keep is kept by crashes, too. -/
theorem Keeps.next {I : δ → Prop} (hstart : ∀ d, J c.start d)
    (hstep : ∀ p d d' p', J p d → I d → c.step p d = some (d', p') → J p' d' ∧ I d')
    (h : Keeps J I s) {a : Act} (hnext : c.next s a = some t) : Keeps J I t := by
  cases a with
  | start =>
    simp only [Script.next, Option.ite_none_right_eq_some, Option.some.injEq] at hnext
    obtain ⟨-, rfl⟩ := hnext
    refine ⟨h.committed, h.committed, fun p hp => ?_⟩
    cases hp
    exact hstart _
  | step =>
    simp only [Script.next, Option.bind_eq_some_iff, Option.map_eq_some_iff] at hnext
    obtain ⟨p, hp, ⟨d', p'⟩, hd, rfl⟩ := hnext
    obtain ⟨hJ, hI⟩ := hstep p s.working d' p' (h.point p hp) h.working hd
    refine ⟨h.committed, hI, fun q hq => ?_⟩
    cases hq
    exact hJ
  | commit =>
    simp only [Script.next, Option.map_eq_some_iff] at hnext
    obtain ⟨p, hp, rfl⟩ := hnext
    exact ⟨h.working, h.working, fun q hq => by cases hq; exact h.point _ hp⟩
  | finish =>
    simp only [Script.next, Option.bind_eq_some_iff, Option.ite_none_right_eq_some,
      Option.some.injEq] at hnext
    obtain ⟨p, -, -, rfl⟩ := hnext
    exact ⟨h.working, h.working, fun q hq => by cases hq⟩
  | crash =>
    simp only [Script.next, Option.some.injEq] at hnext
    subst hnext
    exact ⟨h.committed, h.committed, fun q hq => by cases hq⟩

/-- Along every run, both copies of the store have the target of the store at the start. -/
theorem Approaches.run (h : Approaches c J target)
    (hrun : Run (StepOf c.next) (.idle d) tr s) : Keeps J (fun e => target e = target d) s := by
  refine hrun.invariant (I := Keeps J fun e => target e = target d) ?_
    ⟨rfl, rfl, fun p hp => by cases hp⟩
  intro t a u hkeeps hstep
  refine hkeeps.next h.start (fun p e e' p' hJ hI hmove => ?_) hstep
  obtain ⟨hJ', htarget⟩ := h.step p e e' p' hJ hmove
  exact ⟨hJ', htarget.trans hI⟩

/-- A script that was completed has committed what it did, and no script runs. -/
theorem finish_inv (hstep : StepOf c.next s .finish t) :
    ∃ p, s.pc = some p ∧ c.isDone p = true ∧ t = .idle s.working := by
  have hnext : c.next s .finish = some t := hstep
  simp only [Script.next, Option.bind_eq_some_iff, Option.ite_none_right_eq_some,
    Option.some.injEq] at hnext
  obtain ⟨p, hp, hdone, rfl⟩ := hnext
  exact ⟨p, hp, hdone, rfl⟩

/-- **A completed script commits the target** of the store that the first attempt found,
    however many attempts were cut off before. -/
theorem Approaches.finish (h : Approaches c J target)
    (hrun : Run (StepOf c.next) (.idle d) (tr ++ [.finish]) s) :
    s = .idle (target d) ∧ ∃ p, J p (target d) ∧ c.isDone p = true := by
  obtain ⟨t, hbefore, hlast⟩ := hrun.split
  obtain ⟨u, hstep, hnil⟩ := hlast.cons_inv
  obtain rfl := hnil.nil_inv
  obtain ⟨p, hp, hdone, rfl⟩ := finish_inv hstep
  have hkeeps := h.run hbefore
  have hJ := hkeeps.point p hp
  -- at its end the script has reached the target, which has not changed
  have htarget : t.working = target d := (h.done p t.working hJ hdone).symm.trans hkeeps.working
  rw [htarget] at hJ
  exact ⟨congrArg State.idle htarget, p, hJ, hdone⟩

/-- **Running again changes nothing** when the store is its own target. -/
theorem Approaches.stable (h : Approaches c J target) (htarget : target d = d)
    (hrun : Run (StepOf c.next) (.idle d) tr s) : s.committed = d ∧ s.working = d := by
  have hkeeps : Keeps J (fun e => e = d) s := by
    refine hrun.invariant (I := Keeps J fun e => e = d) ?_ ⟨rfl, rfl, fun p hp => by cases hp⟩
    intro t a u hkeeps hstep
    refine hkeeps.next h.start (fun p e e' p' hJ he hmove => ?_) hstep
    subst he
    exact ⟨(h.step p e e' p' hJ hmove).1, h.still p e e' p' hJ hmove htarget⟩
  exact ⟨hkeeps.committed, hkeeps.working⟩

/-- From a program point, a script that takes a step wherever it is not done comes to its
    end. -/
private theorem exists_finish_of_point {Able : δ → Prop} {rank : π → Nat}
    (h : Approaches c J target)
    (hprogress : ∀ p d, J p d → Able d → c.isDone p = true ∨ (c.step p d).isSome)
    (hstep : ∀ p d d' p', J p d → Able d → c.step p d = some (d', p') →
      Able d' ∧ rank p' < rank p)
    (e : δ) {p : π} (hJ : J p d) (hable : Able d) :
    ∃ tr u, Run (StepOf c.next) ⟨e, d, some p⟩ (tr ++ [.finish]) u := by
  -- Induction on the steps that are still to come
  induction hn : rank p using Nat.strongRecOn generalizing d p with
  | _ n ih =>
    rcases hprogress p d hJ hable with hdone | hsome
    · exact ⟨[], .idle d, .single (by simp [StepOf, Script.next, hdone])⟩
    · obtain ⟨⟨d', p'⟩, hmove⟩ := Option.isSome_iff_exists.mp hsome
      obtain ⟨hable', hlt⟩ := hstep p d d' p' hJ hable hmove
      obtain ⟨tr, u, hrun⟩ :=
        ih (rank p') (by omega) (h.step p d d' p' hJ hmove).1 hable' rfl
      have hfirst : StepOf c.next ⟨e, d, some p⟩ .step ⟨e, d', some p'⟩ := by
        simp [StepOf, Script.next, hmove]
      exact ⟨.step :: tr, u, (Run.single hfirst).append hrun⟩

/-- **A script can always be completed** by one more attempt, when no attempt gets stuck. -/
theorem Approaches.exists_finish {Able : δ → Prop} {rank : π → Nat}
    (h : Approaches c J target)
    (hprogress : ∀ p d, J p d → Able d → c.isDone p = true ∨ (c.step p d).isSome)
    (hstep : ∀ p d d' p', J p d → Able d → c.step p d = some (d', p') →
      Able d' ∧ rank p' < rank p)
    (hable : Able d) (hrun : Run (StepOf c.next) (.idle d) tr s) :
    ∃ tr' u, Run (StepOf c.next) s (tr' ++ [.finish]) u := by
  have hkeeps : Keeps J Able s := by
    refine hrun.invariant (I := Keeps J Able) ?_ ⟨hable, hable, fun p hp => by cases hp⟩
    intro t a u hkeeps hnext
    refine hkeeps.next h.start (fun p e e' p' hJ he hmove => ?_) hnext
    exact ⟨(h.step p e e' p' hJ hmove).1, (hstep p e e' p' hJ he hmove).1⟩
  -- whatever the last attempt was at, the next one starts from what is committed
  have hcrash : Run (StepOf c.next) s [.crash] (.idle s.committed) := .single rfl
  have hstart : Run (StepOf c.next) (.idle s.committed) [.start]
      ⟨s.committed, s.committed, some c.start⟩ := .single rfl
  obtain ⟨tr', u, hend⟩ := exists_finish_of_point h hprogress hstep s.committed
    (h.start s.committed) hkeeps.committed
  exact ⟨[.crash] ++ ([.start] ++ tr'), u, by
    simpa using hcrash.append (hstart.append hend)⟩

end

end Restart
