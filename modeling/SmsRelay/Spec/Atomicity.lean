import SmsRelay.ForStd.Once
import SmsRelay.Spec.Unkeyed

/-!
# One row for every recipient, or none

A call of `send_message` writes in one place: its commit, which adds all of its rows.
Every other way through the call, and every way out of it, leaves the database alone.

## Key results

- `covers_created`: the rows are for the recipients, in order
- `Awaiting.step`: a call is quiet until its commit
- `all_or_nothing`: what a call does in every run
-/

namespace SmsRelay

open Transition

namespace SendMessage

/-- The rows are new ones for the recipients of the request, one each, in order. -/
def Covers (lib : Lib) (cfg : Settings) (service : String) (request : SendRequest)
    (rows : List Message) : Prop :=
  List.Forall₂ (fun recipient m =>
    (∃ number, normalize lib cfg (.str recipient) = .ok number ∧ m.toNumber = some number) ∧
      m.direction = .outbound ∧ m.status = .queued ∧ m.service = service ∧ m.body = request.body)
    (recipientsOf request) rows

/-- A step in which the call writes nothing. -/
def LeavesDb (lib : Lib) (cfg : Settings) (call : Nat) (s : Sys) (a : Action) (t : Sys) : Prop :=
  Step lib cfg s a t ∧ ∀ b, a = .sendMessage call b → t.db = s.db

/-- The step in which the call adds the rows, and answers 202. -/
def Adds (lib : Lib) (cfg : Settings) (call : Nat) (rows : List Message) (s : Sys) (a : Action)
    (t : Sys) : Prop :=
  Step lib cfg s a t ∧ a = .sendMessage call .commit ∧
    t.db.messages = s.db.messages ++ rows ∧ t.db.deliveries = s.db.deliveries

section
variable {lib : Lib} {cfg : Settings} {env : Env} {service : String} {request : SendRequest}

/-- What the checks let through has the number of every recipient. -/
theorem validate_recipients {normalized : List String}
    (h : validate lib cfg request = .ok normalized) :
    List.Forall₂ (fun r n => normalize lib cfg (.str r) = .ok n) (recipientsOf request)
      normalized := by
  unfold validate at h
  split at h
  · cases h
  · split at h
    · cases h
    · cases h
    · next hmap =>
      split at h
      · cases h
      · obtain rfl := Except.ok.inj h
        exact Except.mapM_eq_ok.mp hmap

/-- **The rows are for the recipients**, in order. -/
theorem covers_created {normalized uuids : List String} {now : Time} {rows : List Message}
    (hvalid : validate lib cfg request = .ok normalized) (hlen : uuids.length = normalized.length)
    (h : created lib cfg env service request now (uuids.zip normalized) = .ok rows) :
    Covers lib cfg service request rows := by
  have hrecipients := validate_recipients hvalid
  unfold Covers
  generalize recipientsOf request = recipients at hrecipients ⊢
  clear hvalid
  -- on the recipients: each takes one number, one id and one row
  induction hrecipients generalizing uuids rows with
  | nil =>
    rw [List.zip_nil_right] at h
    obtain rfl : [] = rows := Except.ok.inj h
    exact .nil
  | @cons recipient number recipients numbers hnumber _ ih =>
    cases uuids with
    | nil => cases hlen
    | cons id ids =>
      rw [List.zip_cons_cons] at h
      obtain ⟨topic, -, hrest⟩ := Except.bind_eq_ok.mp h
      obtain ⟨messages, hmessages, hcons⟩ := Except.bind_eq_ok.mp hrest
      obtain rfl := Except.ok.inj hcons
      exact .cons ⟨⟨number, hnumber, rfl⟩, rfl, rfl, rfl, rfl⟩
        (ih (Nat.succ.inj hlen) hmessages)

end

/-! ## The call on its way -/

/-- A call that has not committed: it stands on its way, or has ended without rows. -/
inductive Awaiting (lib : Lib) (cfg : Settings) (service : String) (request : SendRequest) :
    Pc → Prop
  /-- The process has died. -/
  | idle : Awaiting lib cfg service request .idle
  | lookup {normalized : List String} : validate lib cfg request = .ok normalized →
      Awaiting lib cfg service request (.lookup service request normalized)
  | creating {normalized : List String} : validate lib cfg request = .ok normalized →
      Awaiting lib cfg service request (.creating service request normalized)
  | committing {rows : List Message} : Covers lib cfg service request rows →
      Awaiting lib cfg service request (.committing service request rows)
  | recovering : Awaiting lib cfg service request (.recovering service request)
  | done {answer : Answer} : Awaiting lib cfg service request (.done service request answer)

section
variable {lib : Lib} {cfg : Settings} {env : Env} {service : String} {request : SendRequest}
  {db db' : Store} {pc pc' : Pc} {a : Act}

/-- A lookup ends the call or goes on to create the rows. -/
theorem awaiting_afterLookup {normalized : List String} {key : String}
    (hvalid : validate lib cfg request = .ok normalized) :
    Awaiting lib cfg service request (afterLookup db service request normalized key) := by
  unfold afterLookup
  split
  · exact .done
  · exact .done
  · exact .creating hvalid

/-- The lookup after an `IntegrityError` ends the call. -/
theorem awaiting_afterRecovery :
    Awaiting lib cfg service request (afterRecovery db service request) := by
  unfold afterRecovery
  split
  · exact .done
  · split <;> exact .done

/-- A database error ends the call. -/
theorem Awaiting.dbError (h : Awaiting lib cfg service request pc)
    (hstep : SendMessage.step lib cfg env db pc .dbError = some (db', pc')) :
    db' = db ∧ Awaiting lib cfg service request pc' := by
  cases h with
  | idle | done | creating => cases hstep
  | lookup | committing | recovering =>
    obtain ⟨rfl, rfl⟩ := Prod.mk.inj (Option.some.inj hstep)
    exact ⟨rfl, .done⟩

/-- **A call writes nothing before its commit.** -/
theorem Awaiting.step (h : Awaiting lib cfg service request pc)
    (hbegin : ∀ service' request', a ≠ .begin service' request')
    (hstep : SendMessage.step lib cfg env db pc a = some (db', pc')) :
    db' = db ∧ Awaiting lib cfg service request pc' ∨
      ∃ rows, Covers lib cfg service request rows ∧ a = .commit ∧
        db.insertMessages rows = some db' ∧ pc' = .done service request (.accepted rows) := by
  have h₀ := h
  cases h with
  | idle =>
    cases a with
    | begin service' request' => exact absurd rfl (hbegin _ _)
    | _ => cases hstep
  | done => cases a <;> cases hstep
  | lookup hvalid =>
    cases trans_of_step hstep with
    | lookup => exact .inl ⟨rfl, awaiting_afterLookup hvalid⟩
    | dbError => exact .inl (h₀.dbError hstep)
  | creating hvalid =>
    cases trans_of_step hstep with
    | topicRaises => exact .inl ⟨rfl, .done⟩
    | create hlen hcreated => exact .inl ⟨rfl, .committing (covers_created hvalid hlen hcreated)⟩
    | dbError => exact .inl (h₀.dbError hstep)
  | committing hcovers =>
    cases trans_of_step hstep with
    | commit hdb => exact .inr ⟨_, hcovers, rfl, hdb, rfl⟩
    | integrityError => exact .inl ⟨rfl, .recovering⟩
    | dbError => exact .inl (h₀.dbError hstep)
  | recovering =>
    cases trans_of_step hstep with
    | recover => exact .inl ⟨rfl, awaiting_afterRecovery⟩
    | dbError => exact .inl (h₀.dbError hstep)

end

section
variable {lib : Lib} {cfg : Settings} {service : String} {request : SendRequest} {s t : Sys}
  {tr : List Action} {call : Nat}

/-- The label does not begin the call. -/
def KeepsOn (call : Nat) (a : Action) : Prop :=
  ∀ service request, a ≠ .sendMessage call (.begin service request)

/-- What a step of the call comes from. -/
theorem step_of_sys {b : Act} (h : Step lib cfg s (.sendMessage call b) t) :
    SendMessage.step lib cfg s.env s.db (s.sendMessages call) b =
      some (t.db, t.sendMessages call) := by
  simp only [Step, StepOf, SmsRelay.step, Option.ite_none_right_eq_some, Option.map_eq_some_iff,
    act] at h
  obtain ⟨-, u, ⟨⟨db, pc⟩, hstep, rfl⟩, rfl⟩ := h
  simpa using hstep

/-- A call that has not committed, after a step of any party. -/
theorem Awaiting.sys_step {a : Action} (h : Awaiting lib cfg service request (s.sendMessages call))
    (hkeeps : KeepsOn call a) (hstep : Step lib cfg s a t) :
    LeavesDb lib cfg call s a t ∧ Awaiting lib cfg service request (t.sendMessages call) ∨
      ∃ rows, Adds lib cfg call rows s a t ∧ Covers lib cfg service request rows ∧
        t.sendMessages call = .done service request (.accepted rows) := by
  cases (SmsRelay.trans_of_step hstep).2.sendMessage_step call with
  | other hother hpc => exact .inl ⟨⟨hstep, fun b hb => absurd hb (hother b)⟩, hpc ▸ h⟩
  | crash hpc =>
    refine .inl ⟨⟨hstep, fun b hb => by cases hb⟩, ?_⟩
    rw [hpc]
    generalize s.sendMessages call = pc at h
    cases h with
    | done => exact .done
    | _ => exact .idle
  | @own b _ _ =>
    have hbegin : ∀ service' request', b ≠ .begin service' request' := fun service' request' hb =>
      hkeeps service' request' (congrArg (Action.sendMessage call) hb)
    rcases h.step hbegin (step_of_sys hstep) with
      ⟨hdb, hpc⟩ | ⟨rows, hcovers, rfl, hinsert, hpc⟩
    · exact .inl ⟨⟨hstep, fun _ _ => hdb⟩, hpc⟩
    · obtain ⟨hms, hds⟩ := Store.insertMessages_eq_some.mp hinsert
      exact .inr ⟨rows, ⟨hstep, rfl, hms, hds⟩, hcovers, hpc⟩

/-- A call that was answered does nothing any more. -/
theorem answered_step {a : Action} {answer : Answer}
    (hdone : s.sendMessages call = .done service request answer) (hstep : Step lib cfg s a t) :
    LeavesDb lib cfg call s a t ∧ t.sendMessages call = .done service request answer := by
  cases (SmsRelay.trans_of_step hstep).2.sendMessage_step call with
  | other hother hpc => exact ⟨⟨hstep, fun b hb => absurd hb (hother b)⟩, hpc.trans hdone⟩
  | crash hpc =>
    refine ⟨⟨hstep, fun b hb => by cases hb⟩, ?_⟩
    rw [hpc, hdone]
    rfl
  | @own b _ _ =>
    have hown := step_of_sys hstep
    rw [hdone] at hown
    cases b <;> cases hown

/-- The begin of a call writes nothing. -/
theorem awaiting_begin
    (hstep : Step lib cfg s (.sendMessage call (.begin service request)) t) :
    LeavesDb lib cfg call s (.sendMessage call (.begin service request)) t ∧
      Awaiting lib cfg service request (t.sendMessages call) := by
  have hown := trans_of_step (step_of_sys hstep)
  generalize s.sendMessages call = pc, hdb : t.db = db, t.sendMessages call = pc' at hown
  cases hown with
  | refuse => exact ⟨⟨hstep, fun _ _ => hdb⟩, .done⟩
  | begin hvalid =>
    refine ⟨⟨hstep, fun _ _ => hdb⟩, ?_⟩
    split
    · exact .lookup hvalid
    · exact .creating hvalid

/-- **What a call does in every run**, whatever the other parties do between its steps, and
    however it ends: nothing to the database, or its one commit, which adds a row for
    every recipient and is answered with these rows. -/
theorem all_or_nothing
    (hcall : Run lib cfg s (.sendMessage call (.begin service request) :: tr) t)
    (hkeeps : ∀ a ∈ tr, KeepsOn call a) :
    Transition.Run (LeavesDb lib cfg call) s (.sendMessage call (.begin service request) :: tr) t ∨
      ∃ rows, CommitsOnce (LeavesDb lib cfg call) (Adds lib cfg call) rows s
          (.sendMessage call (.begin service request) :: tr) t ∧
        Covers lib cfg service request rows ∧
        t.sendMessages call = .done service request (.accepted rows) := by
  obtain ⟨u, hbegin, hrest⟩ := hcall.cons_inv
  obtain ⟨hquiet, hpc⟩ := awaiting_begin hbegin
  let Open (v : Sys) : Prop := Awaiting lib cfg service request (v.sendMessages call)
  let Answered (rows : List Message) (v : Sys) : Prop := Covers lib cfg service request rows ∧
    v.sendMessages call = .done service request (.accepted rows)
  have hopen : ∀ v a w, Open v → Guarded (fun _ a => KeepsOn call a) (Step lib cfg) v a w →
      LeavesDb lib cfg call v a w ∧ Open w ∨
        ∃ rows, Adds lib cfg call rows v a w ∧ Answered rows w :=
    fun v a w hv hstep => Awaiting.sys_step hv hstep.1 hstep.2
  have hclosed : ∀ rows v a w, Answered rows v →
      Guarded (fun _ a => KeepsOn call a) (Step lib cfg) v a w →
      LeavesDb lib cfg call v a w ∧ Answered rows w := fun rows v a w hanswered hstep => by
    obtain ⟨hquiet, hdone⟩ := answered_step hanswered.2 hstep.2
    exact ⟨hquiet, hanswered.1, hdone⟩
  rcases Run.once hopen hclosed hpc (hrest.guard hkeeps) with
    ⟨hrun, -⟩ | ⟨rows, hcommits, hcovers, hdone⟩
  · exact .inl ((Transition.Run.single hquiet).append hrun)
  · obtain ⟨tr₁, a, tr₂, v, w, rfl, hbefore, hcommit, hafter⟩ := hcommits.splits
    exact .inr ⟨rows, ⟨_ :: tr₁, a, tr₂, v, w, rfl, (Transition.Run.single hquiet).append hbefore,
      hcommit, hafter⟩, hcovers, hdone⟩

/-- A call that writes nothing and runs alone leaves the database as it was. -/
theorem db_of_leavesDb {acts : List Act}
    (h : Transition.Run (LeavesDb lib cfg call) s (acts.map (Action.sendMessage call)) t) :
    t.db = s.db := by
  generalize htr : acts.map (Action.sendMessage call) = tr at h
  induction h generalizing acts with
  | nil => rfl
  | @snoc tr u a v _ hstep ih =>
    obtain ⟨acts₁, acts₂, rfl, hfirst, hlast⟩ := List.map_eq_append_iff.mp htr
    obtain ⟨b, -, hb⟩ := List.mem_map.mp (hlast ▸ List.mem_singleton.mpr (Eq.refl a))
    exact (hstep.2 b hb.symm).trans (ih hfirst)

end

end SendMessage

namespace Sample

/-- A message for two recipients. -/
def twoRecipients : SendRequest :=
  { request with recipients := .inr ["+12025550101", "+12025550101"] }

/-- The steps of the call for it. -/
def twoActs : List SendMessage.Act :=
  [.begin "svc" twoRecipients, .create ["m1", "m2"] 0, .commit]

end Sample

/-- Of a call that adds two rows, each is for one of the two recipients. -/
theorem SendMessage.all_or_nothing_pair : ∃ t rows,
    Run Sample.lib Sample.cfg (Sys.init Sample.env)
      (Sample.twoActs.map (Action.sendMessage 0)) t ∧
    Sample.statuses t = [("m1", .queued), ("m2", .queued)] ∧
    Covers Sample.lib Sample.cfg "svc" Sample.twoRecipients rows ∧
    t.sendMessages 0 = .done "svc" Sample.twoRecipients (.accepted rows) := by
  obtain ⟨t, hrun, hrows⟩ : ∃ t,
      Run Sample.lib Sample.cfg (Sys.init Sample.env)
        (Sample.twoActs.map (Action.sendMessage 0)) t ∧
      Sample.statuses t = [("m1", .queued), ("m2", .queued)] := run_of_exec_map (by decide +kernel)
  have hkeeps : ∀ a ∈ [Action.sendMessage 0 (.create ["m1", "m2"] 0), .sendMessage 0 .commit],
      KeepsOn 0 a := by
    simp [KeepsOn]
  rcases all_or_nothing hrun hkeeps with hquiet | ⟨rows, -, hcovers, hdone⟩
  · -- a call that writes nothing leaves the new database empty
    have htwo : Transition.Run (LeavesDb Sample.lib Sample.cfg 0) (Sys.init Sample.env)
        (Sample.twoActs.map (Action.sendMessage 0)) t := hquiet
    have hdb := db_of_leavesDb htwo
    rw [Sample.statuses, hdb] at hrows
    cases hrows
  · exact ⟨t, rows, hrun, hrows, hcovers, hdone⟩

end SmsRelay
