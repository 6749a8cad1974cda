import SmsRelay.Native.System

/-!
# A call on its own

What a call does when no other party moves between its steps is what its step function
does, one action after another, to the database and the call.

## Key results

- `run_sendMessage_iff`, `run_inbound_iff`: the runs that consist of the steps of one call
- `exists_inbound_step`: a single step of a call
-/

namespace SmsRelay

open Transition

/-- The ids the actions of a call draw are distinct and new. -/
def DrawsFresh (s : Sys) (uuids : List String) : Prop := uuids.Nodup ∧ ∀ id ∈ uuids, id ∉ s.used

/-- What is left of the ids once the first ones are drawn. -/
theorem DrawsFresh.tail {s t : Sys} {uuids rest : List String} (h : DrawsFresh s (uuids ++ rest))
    (hused : t.used = uuids ++ s.used) : DrawsFresh t rest := by
  obtain ⟨hnd, hnew⟩ := h
  rw [List.nodup_append] at hnd
  refine ⟨hnd.2.1, fun id hid => ?_⟩
  rw [hused, List.mem_append]
  rintro (hdrawn | hold)
  · exact hnd.2.2 id hdrawn id hid rfl
  · exact hnew id (List.mem_append_right _ hid) hold

theorem DrawsFresh.head {s : Sys} {a : Action} {rest : List String}
    (h : DrawsFresh s (a.uuids ++ rest)) : Fresh s a :=
  ⟨(List.nodup_append.mp h.1).1, fun id hid => h.2 id (List.mem_append_left _ hid)⟩

/-- The database and a call of `send_message` after one of its actions. -/
def SendMessage.move (lib : Lib) (cfg : Settings) (env : Env) (p : Store × SendMessage.Pc)
    (a : SendMessage.Act) : Option (Store × SendMessage.Pc) :=
  SendMessage.step lib cfg env p.1 p.2 a

/-- The database and a call of `android_gateway_inbound` after one of its actions. -/
def Inbound.move (lib : Lib) (cfg : Settings) (env : Env) (p : Store × Inbound.Pc)
    (a : Inbound.Act) : Option (Store × Inbound.Pc) :=
  Inbound.step lib cfg env p.1 p.2 a

section
variable {lib : Lib} {cfg : Settings} {s t : Sys} {call : Nat} {db : Store}

/-- Two components of a state are what they are. -/
private theorem exists_pair_iff {P : Sys → Prop} {τ : Type} {f : Sys → τ} {pc : τ} :
    (∃ t, P t ∧ t.db = db ∧ f t = pc) ↔ ∃ t, P t ∧ (t.db, f t) = (db, pc) := by
  simp only [Prod.mk.injEq]

/-- A step of a call of `send_message`. -/
private theorem step_sendMessage {a : SendMessage.Act} (h : Fresh t (.sendMessage call a)) :
    (step lib cfg t (.sendMessage call a)).map (fun t => (t.db, t.sendMessages call)) =
        SendMessage.move lib cfg t.env (t.db, t.sendMessages call) a ∧
      ∀ u, step lib cfg t (.sendMessage call a) = some u →
        u.env = t.env ∧ u.used = (Action.sendMessage call a).uuids ++ t.used := by
  simp only [step, if_pos h, act, SendMessage.move]
  cases SendMessage.step lib cfg t.env t.db (t.sendMessages call) a with
  | none => exact ⟨rfl, by simp⟩
  | some p =>
    refine ⟨by simp, fun u hu => ?_⟩
    obtain rfl := Option.some.inj hu
    exact ⟨rfl, rfl⟩

/-- A step of a call of `android_gateway_inbound`. -/
private theorem step_inbound {a : Inbound.Act} (h : Fresh t (.inbound call a)) :
    (step lib cfg t (.inbound call a)).map (fun t => (t.db, t.inbounds call)) =
        Inbound.move lib cfg t.env (t.db, t.inbounds call) a ∧
      ∀ u, step lib cfg t (.inbound call a) = some u →
        u.env = t.env ∧ u.used = (Action.inbound call a).uuids ++ t.used := by
  simp only [step, if_pos h, act, Inbound.move]
  cases Inbound.step lib cfg t.env t.db (t.inbounds call) a with
  | none => exact ⟨rfl, by simp⟩
  | some p =>
    refine ⟨by simp, fun u hu => ?_⟩
    obtain rfl := Option.some.inj hu
    exact ⟨rfl, rfl⟩

/-- What only the steps of one party do, the step function of the party does by itself. -/
private theorem exec_alone {τ β : Type} {e : β → Action} {f : Sys → τ}
    {move : Env → τ → β → Option τ}
    (hmove : ∀ t a, Fresh t (e a) → (step lib cfg t (e a)).map f = move t.env (f t) a ∧
      ∀ u, step lib cfg t (e a) = some u → u.env = t.env ∧ u.used = (e a).uuids ++ t.used)
    {acts : List β} (hfresh : DrawsFresh s (acts.flatMap fun a => (e a).uuids)) :
    (exec (step lib cfg) s (acts.map e)).map f = exec (move s.env) (f s) acts := by
  -- along the way the environment stays, and the ids to come stay new
  refine exec_project f (fun t acts => t.env = s.env ∧
    DrawsFresh t (acts.flatMap fun a => (e a).uuids)) (fun t a acts hok => ?_) ⟨rfl, hfresh⟩
  obtain ⟨henv, hfresh⟩ := hok
  rw [List.flatMap_cons] at hfresh
  obtain ⟨hmap, hstep⟩ := hmove t a hfresh.head
  refine ⟨henv ▸ hmap, fun u hu => ?_⟩
  obtain ⟨henv', hused⟩ := hstep u hu
  exact ⟨henv'.trans henv, hfresh.tail hused⟩

/-- **The runs of one call of `send_message`.** -/
theorem run_sendMessage_iff {acts : List SendMessage.Act} {pc : SendMessage.Pc}
    (hfresh : DrawsFresh s (acts.flatMap fun a => (Action.sendMessage call a).uuids)) :
    (∃ t, Run lib cfg s (acts.map (Action.sendMessage call)) t ∧ t.db = db ∧
        t.sendMessages call = pc) ↔
      exec (SendMessage.move lib cfg s.env) (s.db, s.sendMessages call) acts = some (db, pc) := by
  rw [exists_pair_iff, ← exec_alone (f := fun t : Sys => (t.db, t.sendMessages call))
    (fun t a h => step_sendMessage h) hfresh]
  exact exists_run_iff

/-- **The runs of one call of `android_gateway_inbound`.** -/
theorem run_inbound_iff {acts : List Inbound.Act} {pc : Inbound.Pc}
    (hfresh : DrawsFresh s (acts.flatMap fun a => (Action.inbound call a).uuids)) :
    (∃ t, Run lib cfg s (acts.map (Action.inbound call)) t ∧ t.db = db ∧
        t.inbounds call = pc) ↔
      exec (Inbound.move lib cfg s.env) (s.db, s.inbounds call) acts = some (db, pc) := by
  rw [exists_pair_iff, ← exec_alone (f := fun t : Sys => (t.db, t.inbounds call))
    (fun t a h => step_inbound h) hfresh]
  exact exists_run_iff

/-- A call that draws no ids can take its next step. -/
theorem exists_inbound_step {a : Inbound.Act} {pc : Inbound.Pc}
    (hdraws : (Action.inbound call a).uuids = [])
    (h : Inbound.move lib cfg s.env (s.db, s.inbounds call) a = some (db, pc)) :
    ∃ t, Step lib cfg s (.inbound call a) t ∧ t.db = db ∧ t.inbounds call = pc := by
  have hfresh : DrawsFresh s ([a].flatMap fun a => (Action.inbound call a).uuids) := by
    simp [DrawsFresh, hdraws]
  have hexec : exec (Inbound.move lib cfg s.env) (s.db, s.inbounds call) [a] = some (db, pc) := by
    simp [exec, h]
  obtain ⟨t, hrun, hdb, ht⟩ := (run_inbound_iff hfresh).mpr hexec
  -- the run consists of that step
  obtain ⟨t', hstep, hnil⟩ := Run.cons_inv hrun
  obtain rfl := hnil.nil_inv
  exact ⟨t', hstep, hdb, ht⟩

end

end SmsRelay
