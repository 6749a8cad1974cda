import SmsRelay.Spec.Calls
import SmsRelay.Spec.Pacing

/-!
# Delivery receipts

`_apply_receipt` looks a message up by `provider_message_id` and by nothing else.  Three
writers fill that column: the send loop with the gateway's ids, the send loop with ntfy's
receipts, and the inbound route with the ids of the events.  Only the first of them are the
ids a receipt is about.

## Key results

- `returned_reachable`: a text message carries the id that the gateway returned for it
- `receipt_confined_iff`: which receipts touch nothing but the message they are about
-/

namespace SmsRelay

open UnitOfWork Transition Inbound

/-! ## The ids the gateway returned -/

/-- An answer of the provider in the trace gave the message this id. -/
def Returned (lib : Lib) (cfg : Settings) (tr : List Action) (id p : String) : Prop :=
  ∃ reply now result, Action.send (.providerReply id reply now) ∈ tr ∧
    providerSend cfg.provider reply = some (.ok result) ∧
      lib.bindText result.providerMessageId = some (some p)

/-- Ids of text messages are ids the gateway returned. -/
structure PidRecord (lib : Lib) (cfg : Settings) (tr : List Action) (s : Sys) : Prop where
  row : ∀ m ∈ s.db.messages, m.direction = .outbound → m.transport ≠ .ntfy →
    ∀ p, m.providerMessageId = some p → Returned lib cfg tr m.id p
  send : ∀ o, s.send = .finishing o → ∀ p, o.current.providerMessageId = some p →
    Returned lib cfg tr o.loaded.id p

section
variable {lib : Lib} {cfg : Settings} {env : Env} {s t : Sys} {a : Action} {tr : List Action}
  {id p : String}

theorem Returned.extend (h : Returned lib cfg tr id p) (tr' : List Action) :
    Returned lib cfg (tr ++ tr') id p := by
  obtain ⟨reply, now, result, hmem, hrest⟩ := h
  exact ⟨reply, now, result, List.mem_append_left _ hmem, hrest⟩

/-- A row in the queue has no id yet. -/
theorem RowInv.pid_none {m : Message} (h : RowInv cfg m)
    (hs : m.status = .queued ∨ m.status = .sending) : m.providerMessageId = none :=
  (h.pending hs).2.1

/-- The id of an object the send loop commits, when the message is a text message. -/
private theorem pid_of_sendObj (hp : PidRecord lib cfg tr s) (hi : Inv cfg s)
    {o : Tracked Message} (ho : o ∈ s.send.objs) (hsms : o.current.transport ≠ .ntfy)
    (hpid : o.current.providerMessageId = some p) : Returned lib cfg tr o.loaded.id p := by
  have hsend := hi.send
  have hrec := hp.send
  -- a row that is in the queue has none
  have hnone : o.loaded ∈ s.db.messages → o.loaded.status = .queued ∨ o.loaded.status = .sending →
      o.loaded.providerMessageId = none := fun hmem hs => (hi.row o.loaded hmem).1.pid_none hs
  generalize s.send = pc at ho hsend hrec
  cases pc with
  | requeueing objs =>
    obtain ⟨hmem, hs, now, hcur⟩ := hsend.2 o ho
    rw [hcur, SendLoop.requeue, hnone hmem (.inr hs)] at hpid
    cases hpid
  | claimed o' =>
    obtain rfl := List.mem_singleton.mp ho
    obtain ⟨hmem, hdue, now, hcur⟩ := hsend
    have hs : o.loaded.status = .queued := by
      simp only [SendLoop.isDue, Bool.and_eq_true, decide_eq_true_eq] at hdue
      exact hdue.1.2
    rw [hcur, SendLoop.claim, hnone hmem (.inl hs)] at hpid
    cases hpid
  | acknowledged o' =>
    -- a published message is not a text message
    obtain rfl := List.mem_singleton.mp ho
    obtain ⟨hmem, hs, hntfy, receipt, now, hcur⟩ := hsend
    rw [hcur] at hsms
    exact absurd hntfy hsms
  | fellBack o' =>
    obtain rfl := List.mem_singleton.mp ho
    obtain ⟨hmem, hs, -, hcur⟩ := hsend
    rw [hcur, SendLoop.fallBack, hnone hmem (.inr hs)] at hpid
    cases hpid
  | finishing o' =>
    obtain rfl := List.mem_singleton.mp ho
    exact hrec o rfl p hpid
  | _ => cases ho

private theorem pidRecord_row (hp : PidRecord lib cfg tr s) (hi : Inv cfg s)
    (h : Trans lib cfg s a t) {m : Message} (hm : m ∈ t.db.messages)
    (hdir : m.direction = .outbound) (hsms : m.transport ≠ .ntfy)
    (hpid : m.providerMessageId = some p) : Returned lib cfg tr m.id p := by
  rcases rows_origin hi h hm with ⟨r, hr, rfl | hcause⟩ | ⟨c, -, hrow, -⟩
  · exact hp.row m hr hdir hsms p hpid
  · cases hcause with
    | @send o now stamp ho hloaded =>
      have hid : o.current.id = o.loaded.id := hi.send.keepsKeys o ho
      have hreturned := pid_of_sendObj hp hi ho hsms hpid
      rw [← hid] at hreturned
      exact hreturned
    | poll => exact hp.row r hr hdir hsms p hpid
    | receipt => exact hp.row r hr hdir hsms p hpid
  · -- a new row is in the queue
    obtain ⟨⟨hinv, hdir', -, hnew⟩, -⟩ := hi.call_row c m hrow
    rw [hinv.pid_none (.inl (hnew (hdir'.symm.trans hdir)))] at hpid
    cases hpid

/-- Only an answer of the provider puts an id in the send loop's hands. -/
private theorem pidRecord_send (hp : PidRecord lib cfg tr s) (hi : Inv cfg t)
    (h : Trans lib cfg s a t) {o : Tracked Message} (hpc : t.send = .finishing o)
    (hpid : o.current.providerMessageId = some p) :
    Returned lib cfg (tr ++ [a]) o.loaded.id p := by
  have hsend := hi.send
  rw [hpc] at hsend
  have hloaded : o.loaded.providerMessageId = none :=
    (hi.row o.loaded hsend.1).1.pid_none (.inr hsend.2.1)
  cases h with
  | @send b db pc h =>
    obtain rfl : pc = .finishing o := hpc
    obtain ⟨reply, now, rfl, ⟨message, permanent, hcur⟩ | ⟨result, pid, hresult, hbind, hcur⟩⟩ :=
      h.finishing_cases
    · -- a failure leaves the column alone
      rw [hcur, (recordFailure_cases cfg message permanent now o.loaded).2.2.1, hloaded] at hpid
      cases hpid
    · obtain rfl : pid = some p := by rw [hcur] at hpid; exact hpid
      exact ⟨reply, now, result, List.mem_append_right _ (List.mem_singleton.mpr rfl), hresult,
        hbind⟩
  | crash => cases hpc
  | status | fanout | prune | sendMessage | inbound | configure =>
    exact (hp.send o hpc p hpid).extend _

theorem pidRecord_step (hp : PidRecord lib cfg tr s) (hi : Inv cfg s)
    (hstep : Step lib cfg s a t) : PidRecord lib cfg (tr ++ [a]) t := by
  obtain ⟨-, h⟩ := trans_of_step hstep
  constructor
  · intro m hm hdir hsms p hpid
    exact (pidRecord_row hp hi h hm hdir hsms hpid).extend [a]
  · intro o hpc p hpid
    exact pidRecord_send hp (inv_step hi hstep) h hpc hpid

/-- **A text message carries the id that the gateway returned for it**, on every run. -/
theorem returned_reachable (hrun : Run lib cfg (Sys.init env) tr t) : PidRecord lib cfg tr t :=
  hrun.traceInvariant (P := PidRecord lib cfg)
    ⟨fun _ h => absurd h List.not_mem_nil, fun _ h => by cases h⟩
    fun _ _ _ _ hrun hp hstep => pidRecord_step hp (inv_reachable hrun) hstep

/-- For a message that is still for ntfy the provider was never asked. -/
theorem not_returned_of_ntfy (hrun : Run lib cfg (Sys.init env) tr t) {m : Message}
    (hm : m ∈ t.db.messages) (hntfy : m.transport = .ntfy) : ¬ Returned lib cfg tr m.id p := by
  intro h
  obtain ⟨reply, now, result, hmem, -, -⟩ := h
  obtain ⟨tr₁, tr₂, u, v, -, h₁, hstep, h₂⟩ := hrun.of_mem hmem
  have hi := inv_reachable h₁
  -- the loop had a text message in hand, and a message never goes back to ntfy
  obtain ⟨r, hr, hid, hsms⟩ : ∃ r ∈ u.db.messages, r.id = m.id ∧ r.transport ≠ .ntfy := by
    have hsend := hi.send
    cases (trans_of_step hstep).2 with
    | send h =>
      generalize u.send = pc at h hsend
      generalize hact : SendLoop.Act.providerReply m.id reply now = b at h
      cases h with
      | @providerReply m' reply' now' result' _ =>
        obtain ⟨hid, -, -⟩ := SendLoop.Act.providerReply.inj hact
        exact ⟨m', hsend.1, hid.symm, hsend.2.2⟩
      | _ => cases hact
  exact not_ntfy_evolved hsms
    (evolved_run hi ((Run.single hstep).append h₂) hr hm hid.symm) hntfy

end

/-! ## What a receipt does -/

namespace Inbound

/-- The event is a receipt: `sms:delivered`, or `sms:sent`. -/
def IsReceipt (event : List (PyStr × Json PyStr)) (delivered : Bool) : Prop :=
  (Json.lookup event "event").getD (.str "sms:received") =
    .str (if delivered then "sms:delivered" else "sms:sent")

theorem begin_receipt {lib : Lib} {cfg : Settings} {event : List (PyStr × Json PyStr)}
    {delivered : Bool} (h : IsReceipt event delivered) :
    begin lib cfg (.ok (.obj event)) = beginReceipt lib event delivered := by
  cases delivered <;> simp_all [IsReceipt, begin]

end Inbound

/-- The row carries the id that a receipt names. -/
def Carries (p : String) (m : Message) : Prop := m.providerMessageId = some p

/-- The step changes at most the status of one row: an outbound one, under the id that the
    gateway returned for it. -/
def StatusOnly (lib : Lib) (cfg : Settings) (tr : List Action) (p : PyStr) (db db' : Store) :
    Prop :=
  db'.deliveries = db.deliveries ∧ (db'.messages = db.messages ∨
    ∃ q, p = .text q ∧
      ∃ m ∈ db.messages, m.direction = .outbound ∧ Carries q m ∧ Returned lib cfg tr m.id q ∧
        ∃ now, db'.messages = db.messages.map fun r =>
          if r.id = m.id then { r with status := .delivered, updatedAt := now } else r)

/-- Call `call`, which is about to look up the receipt's id in the state `s`, touches
    nothing but the message the receipt is about, until it is over. -/
structure Confined (lib : Lib) (cfg : Settings) (tr : List Action) (s : Sys) (call : Nat)
    (p : PyStr) : Prop where
  /-- The lookup writes nothing, and fails at most because no row can carry the id, never on
      more than one match. -/
  lookup : ∀ t, Step lib cfg s (.inbound call .select) t →
    t.db = s.db ∧ ∀ e, t.inbounds call = .done (.raised e) → p.encode = none
  /-- Every later step of the call, whatever happens in between. -/
  steps : ∀ tr' u a v, Run lib cfg s (.inbound call .select :: tr') u → .crash ∉ tr' →
    Step lib cfg u (.inbound call a) v →
      StatusOnly lib cfg (tr ++ .inbound call .select :: tr') p u.db v.db

/-- At most one row carries the id, and a `delivered` receipt finds it delivered, or
    outbound and not for ntfy. -/
structure Attributable (db : Store) (p : String) (delivered : Bool) : Prop where
  lone : ∀ m ∈ db.messages, ∀ m' ∈ db.messages, Carries p m → Carries p m' → m = m'
  text : delivered = true → ∀ m ∈ db.messages, Carries p m →
    m.status = .delivered ∨ (m.direction = .outbound ∧ m.transport ≠ .ntfy)

section
variable {lib : Lib} {cfg : Settings} {env : Env} {s t u v : Sys} {a : Action}
  {tr : List Action} {call : Nat} {p : String} {delivered : Bool} {db db' : Store}
  {o : Tracked Message} {m : Message}

theorem mem_receiptMatches : m ∈ receiptMatches db p ↔ m ∈ db.messages ∧ Carries p m := by
  simp [receiptMatches, Carries]

/-- The lookup returns the only row that carries the id, or finds none. -/
theorem receiptMatches_cases
    (h : ∀ m ∈ db.messages, ∀ m' ∈ db.messages, Carries p m → Carries p m' → m = m') :
    receiptMatches db p = [] ∨
      ∃ m ∈ db.messages, Carries p m ∧ receiptMatches db p = [m] := by
  have hsame : ∀ m ∈ receiptMatches db p, ∀ m' ∈ receiptMatches db p, m = m' := by
    intro m hm m' hm'
    obtain ⟨hmem, hcarries⟩ := mem_receiptMatches.mp hm
    obtain ⟨hmem', hcarries'⟩ := mem_receiptMatches.mp hm'
    exact h m hmem m' hmem' hcarries hcarries'
  rcases Store.select_cases hsame with hnone | ⟨m, hone⟩
  · exact .inl hnone
  · have hm : m ∈ receiptMatches db p := by
      rw [receiptMatches, hone]
      exact List.mem_singleton.mpr rfl
    obtain ⟨hmem, hcarries⟩ := mem_receiptMatches.mp hm
    exact .inr ⟨m, hmem, hcarries, hone⟩

/-- Where a receipt stands after its lookup, when no two rows carry the id. -/
theorem afterReceiptSelect_of_lone
    (h : ∀ m ∈ db.messages, ∀ m' ∈ db.messages, Carries p m → Carries p m' → m = m') :
    (∃ answer, afterReceiptSelect db p delivered = .done answer ∧ ∀ e, answer ≠ .raised e) ∨
      ∃ m ∈ db.messages, Carries p m ∧ delivered = true ∧
        afterReceiptSelect db p delivered =
          .receiptCommit ((Tracked.load m).assign markDelivered) := by
  unfold afterReceiptSelect
  rw [PyStr.encode_text]
  dsimp only
  rcases receiptMatches_cases h with hnone | ⟨m, hm, hcarries, hone⟩
  · rw [hnone]
    exact .inl ⟨.unknown, rfl, (fun _ h => by cases h)⟩
  · rw [hone]
    cases delivered with
    | false => exact .inl ⟨.updated m.id, rfl, (fun _ h => by cases h)⟩
    | true => exact .inr ⟨m, hm, hcarries, rfl, rfl⟩

/-- The commit of a receipt sets the status of its row. -/
theorem flushRow_receipt (now : Time) (hcur : o.current = markDelivered o.loaded)
    (hdirty : o.Dirty) (r : Message) :
    flushRow now [o] r =
      if r.id = o.loaded.id then { r with status := .delivered, updatedAt := now } else r := by
  show o.writeTo now r = _
  have hstatus : o.current.status = .delivered := by rw [hcur]; rfl
  by_cases hid : r.id = o.loaded.id
  · rw [Tracked.writeTo, if_pos ⟨hdirty, hid⟩, if_pos hid,
      @update_of_status o .delivered now hcur hdirty, hstatus]
  · rw [Tracked.writeTo_of_key_ne now o hid, if_neg hid]

/-- An object that was delivered before has nothing to write. -/
theorem dirty_receipt (hcur : o.current = markDelivered o.loaded) :
    o.Dirty ↔ o.loaded.status ≠ .delivered := by
  constructor
  · intro hdirty hs
    exact hdirty (by rw [hcur, markDelivered, ← hs])
  · intro hs heq
    rw [hcur] at heq
    exact hs (congrArg Message.status heq).symm

/-- A receipt past its lookup can only finish. -/
theorem Inbound.Trans.finishes {pc pc' : Pc} {b : Act}
    (h : Inbound.Trans lib cfg env db pc b db' pc')
    (hpc : (∃ o, pc = .receiptCommit o) ∨ ∃ answer, pc = .done answer) :
    ∃ answer, pc' = .done answer := by
  cases h with
  | receiptCommit => exact ⟨_, rfl⟩
  | dbError => exact ⟨_, rfl⟩
  | _ => rcases hpc with ⟨o, h⟩ | ⟨answer, h⟩ <;> cases h

/-- Until the process dies, a receipt past its lookup is where it was, or over. -/
theorem receipt_life (hrun : Run lib cfg s tr u) (hcrash : .crash ∉ tr)
    (hpc : (∃ o, s.inbounds call = .receiptCommit o) ∨ ∃ answer, s.inbounds call = .done answer) :
    u.inbounds call = s.inbounds call ∨ ∃ answer, u.inbounds call = .done answer := by
  induction hrun with
  | nil => exact .inl rfl
  | @snoc tr t a v hrun hstep ih =>
    rw [List.mem_append, not_or] at hcrash
    have hnow : (∃ o, t.inbounds call = .receiptCommit o) ∨
        ∃ answer, t.inbounds call = .done answer := by
      rcases ih hcrash.1 with heq | hdone
      · rw [heq]
        exact hpc
      · exact .inr hdone
    cases (trans_of_step hstep).2.inbound_step call with
    | other _ hsame =>
      rw [hsame]
      exact ih hcrash.1
    | own h => exact .inr (h.finishes hnow)
    | crash => exact absurd (List.mem_singleton.mpr rfl) hcrash.2

/-- The commit of a receipt whose row is an outbound text message. -/
theorem statusOnly_commit {now : Time} (hpid : PidRecord lib cfg tr u)
    (hcur : o.current = markDelivered o.loaded)
    (hrow : o.Dirty → ∀ r ∈ u.db.messages, r.id = o.loaded.id →
      r.direction = .outbound ∧ r.transport ≠ .ntfy ∧ Carries p r)
    (hdb : u.db.updateMessages now [o] = some db') : StatusOnly lib cfg tr (.text p) u.db db' := by
  obtain ⟨hmatched, hms, hds⟩ := Store.updateMessages_eq_some.mp hdb
  refine ⟨hds, ?_⟩
  by_cases hdirty : o.Dirty
  · obtain ⟨r, hr, hid⟩ := hmatched o (List.mem_singleton.mpr rfl) hdirty
    obtain ⟨hdir, hsms, hcarries⟩ := hrow hdirty r hr hid
    refine .inr ⟨p, rfl, r, hr, hdir, hcarries, hpid.row r hr hdir hsms p hcarries, now, ?_⟩
    rw [hms, show r.id = o.loaded.id from hid]
    exact List.map_congr_left fun x _ => flushRow_receipt now hcur hdirty x
  · -- nothing was changed, so nothing is written
    refine .inl ?_
    rw [hms]
    refine (List.map_congr_left fun x _ => ?_).trans (List.map_id _)
    exact flushRow_eq_self now fun o' ho' hdirty' => by
      obtain rfl := List.mem_singleton.mp ho'
      exact absurd hdirty' hdirty

/-- The lookup writes nothing, and goes on with what it finds. -/
theorem lookup_step {p : PyStr} (hpc : s.inbounds call = .receipt p delivered)
    (hstep : Step lib cfg s (.inbound call .select) t) :
    t.db = s.db ∧ t.inbounds call = afterReceiptSelect s.db p delivered := by
  cases (trans_of_step hstep).2 with
  | inbound htrans =>
    rw [hpc] at htrans
    cases htrans with
    | receipt => exact ⟨rfl, by simp⟩

/-- An answered call writes nothing more. -/
theorem db_of_answered {b : Act} {answer : Answer} (hpc : u.inbounds call = .done answer)
    (hstep : Step lib cfg u (.inbound call b) v) : u.db = v.db := by
  cases (trans_of_step hstep).2 with
  | inbound htrans =>
    rw [hpc] at htrans
    cases htrans
    rfl

/-- The row that an attributable receipt marks is still what the lookup has seen. -/
theorem marked_row (hi : Inv cfg s) (h : Attributable s.db p true) (hm : m ∈ s.db.messages)
    (hcarries : Carries p m) (hs : m.status ≠ .delivered) (hrun : Run lib cfg s tr u) :
    ∀ r ∈ u.db.messages, r.id = m.id →
      r.direction = .outbound ∧ r.transport ≠ .ntfy ∧ Carries p r := by
  intro r hr hid
  have hevolved := evolved_run hi hrun hm hr hid
  have hleft : m.LeftQueue := (hi.row m hm).1.leftQueue (by rw [hcarries]; rfl)
  rcases h.text rfl m hm hcarries with hs' | ⟨hdir, hsms⟩
  · exact absurd hs' hs
  · refine ⟨(Message.direction_eq_of_content hevolved.frame).trans hdir,
      not_ntfy_evolved hsms hevolved, ?_⟩
    rw [Carries, frozen_evolved hleft hevolved]
    exact hcarries

/-- **An attributable receipt is confined.** -/
theorem confined_of_attributable (hrun : Run lib cfg (Sys.init env) tr s)
    (hpc : s.inbounds call = .receipt p delivered) (h : Attributable s.db p delivered) :
    Confined lib cfg tr s call (.text p) := by
  have hi := inv_reachable hrun
  constructor
  · -- the lookup itself: it finds one row, or none
    intro t hstep
    obtain ⟨hdb, ht⟩ := lookup_step hpc hstep
    refine ⟨hdb, fun e he => ?_⟩
    rw [ht] at he
    rcases @afterReceiptSelect_of_lone p delivered s.db h.lone with
      ⟨answer, hdone, hnot⟩ | ⟨m, -, -, -, hcommit⟩
    · rw [hdone] at he
      exact absurd (Pc.done.inj he) (hnot e)
    · rw [hcommit] at he
      cases he
  · intro tr' u a v hu hcrash hstep
    obtain ⟨w, hw, hrest⟩ := hu.cons_inv
    obtain ⟨hdb, hwpc⟩ := lookup_step hpc hw
    have hru : Run lib cfg (Sys.init env) (tr ++ .inbound call .select :: tr') u :=
      hrun.append hu
    have hsame : u.db = v.db →
        StatusOnly lib cfg (tr ++ .inbound call .select :: tr') (.text p) u.db v.db :=
      fun heq => heq ▸ ⟨rfl, .inl rfl⟩
    have hover : (∃ answer, u.inbounds call = .done answer) →
        StatusOnly lib cfg (tr ++ .inbound call .select :: tr') (.text p) u.db v.db := by
      intro hdone
      obtain ⟨answer, hdone⟩ := hdone
      exact hsame (db_of_answered hdone hstep)
    rcases @afterReceiptSelect_of_lone p delivered s.db h.lone with
      ⟨answer, hdone, -⟩ | ⟨m, hm, hcarries, hdelivered, hcommit⟩
    · rw [hdone] at hwpc
      rcases receipt_life hrest hcrash (.inr ⟨answer, hwpc⟩) with heq | hover'
      · exact hover ⟨answer, heq.trans hwpc⟩
      · exact hover hover'
    · subst hdelivered
      rw [hcommit] at hwpc
      rcases receipt_life hrest hcrash (.inl ⟨_, hwpc⟩) with heq | hover'
      · cases (trans_of_step hstep).2 with
        | inbound htrans =>
          rw [heq, hwpc] at htrans
          cases htrans with
          | receiptCommit hdb' =>
            refine statusOnly_commit (returned_reachable hru) rfl (fun hdirty => ?_) hdb'
            exact marked_row hi h hm hcarries ((dirty_receipt rfl).mp hdirty) hu
          | dbError => exact hsame rfl
      · exact hover hover'

/-- A receipt whose id cannot be bound ends at its lookup. -/
theorem confined_of_unbindable {p : PyStr} (hpc : s.inbounds call = .receipt p delivered)
    (hp : p.encode = none) : Confined lib cfg tr s call p := by
  have hraised : afterReceiptSelect s.db p delivered = .done (.raised .unicodeEncodeError) := by
    simp only [afterReceiptSelect, hp]
  constructor
  · intro t hstep
    exact ⟨(lookup_step hpc hstep).1, fun _ _ => hp⟩
  · intro tr' u a v hu hcrash hstep
    obtain ⟨w, hw, hrest⟩ := hu.cons_inv
    obtain ⟨-, hwpc⟩ := lookup_step hpc hw
    rw [hraised] at hwpc
    have hdone : ∃ answer, u.inbounds call = .done answer := by
      rcases receipt_life hrest hcrash (.inr ⟨_, hwpc⟩) with heq | hdone
      · exact ⟨_, heq.trans hwpc⟩
      · exact hdone
    obtain ⟨answer, hdone⟩ := hdone
    rw [db_of_answered hdone hstep]
    exact ⟨rfl, .inl rfl⟩

/-! ## What a receipt needs -/

/-- A call at its lookup can make it. -/
theorem exists_lookup (hpc : s.inbounds call = .receipt p delivered) :
    ∃ t, Step lib cfg s (.inbound call .select) t ∧ t.db = s.db ∧
      t.inbounds call = afterReceiptSelect s.db p delivered := by
  apply exists_inbound_step rfl
  simp [Inbound.move, Inbound.step, hpc]

/-- A call at its commit can make it while its row is there. -/
theorem exists_receiptCommit (hpc : s.inbounds call = .receiptCommit o)
    (hcur : o.current = markDelivered o.loaded) (hm : o.loaded ∈ s.db.messages) :
    ∃ t, Step lib cfg s (.inbound call (.commit 0)) t ∧
      s.db.updateMessages 0 [o] = some t.db := by
  have hstatus : ∀ o' ∈ [o], o'.Dirty →
      o'.current = { o'.loaded with status := o'.current.status } := by
    intro o' ho' _
    obtain rfl := List.mem_singleton.mp ho'
    rw [hcur]
    rfl
  obtain ⟨db, hdb⟩ := exists_update_status 0 hstatus (by simp) (fun o' ho' =>
    ⟨o.loaded, hm, by rw [List.mem_singleton.mp ho']⟩)
  have hmove : Inbound.move lib cfg s.env (s.db, s.inbounds call) (.commit 0) =
      some (db, .done (.updated o.loaded.id)) := by
    simp [Inbound.move, Inbound.step, hpc, hdb]
  obtain ⟨t, hstep, hdb', -⟩ := exists_inbound_step rfl hmove
  exact ⟨t, hstep, hdb'.symm ▸ hdb⟩

/-- A lookup that does not fail has found at most one row. -/
theorem lone_of_confined (hpc : s.inbounds call = .receipt p delivered)
    (h : Confined lib cfg tr s call (.text p)) :
    ∀ m ∈ s.db.messages, ∀ m' ∈ s.db.messages, Carries p m → Carries p m' → m = m' := by
  obtain ⟨t, hstep, -, ht⟩ := exists_lookup hpc
  intro m hm m' hm' hcarries hcarries'
  have hmem := mem_receiptMatches.mpr ⟨hm, hcarries⟩
  have hmem' := mem_receiptMatches.mpr ⟨hm', hcarries'⟩
  have hnot := (h.lookup t hstep).2
  rw [ht, afterReceiptSelect, PyStr.encode_text] at hnot
  dsimp only at hnot
  cases hrows : receiptMatches s.db p with
  | nil =>
    rw [hrows] at hmem
    cases hmem
  | cons x rows =>
    rw [hrows] at hmem hmem' hnot
    cases rows with
    | nil => rw [List.mem_singleton.mp hmem, List.mem_singleton.mp hmem']
    | cons y rows => cases hnot _ rfl

/-- **What a confined receipt may have found**: a row that is not delivered yet is an
    outbound text message. -/
theorem text_of_confined (hrun : Run lib cfg (Sys.init env) tr s)
    (hpc : s.inbounds call = .receipt p true) (h : Confined lib cfg tr s call (.text p))
    (hm : m ∈ s.db.messages) (hcarries : Carries p m) (hs : m.status ≠ .delivered) :
    m.direction = .outbound ∧ m.transport ≠ .ntfy := by
  -- The lookup finds the row, and the commit marks it
  obtain ⟨t, hselect, hdb, ht⟩ := @exists_lookup lib cfg _ _ _ _ hpc
  have hone : receiptMatches s.db p = [m] := by
    rcases receiptMatches_cases (lone_of_confined hpc h) with hnone | ⟨m', hm', hc', hone⟩
    · have hmem := mem_receiptMatches.mpr ⟨hm, hcarries⟩
      rw [hnone] at hmem
      cases hmem
    · rw [hone, lone_of_confined hpc h m' hm' m hm hc' hcarries]
  have hcommit : t.inbounds call = .receiptCommit ((Tracked.load m).assign markDelivered) := by
    rw [ht, afterReceiptSelect, PyStr.encode_text]
    dsimp only
    rw [hone]
    rfl
  obtain ⟨v, hstep, hupdate⟩ := @exists_receiptCommit lib cfg _ _ _ hcommit rfl
    (by rw [hdb]; exact hm)
  have hmarked : { m with status := .delivered, updatedAt := 0 } ∈ v.db.messages := by
    obtain ⟨-, hms, -⟩ := Store.updateMessages_eq_some.mp hupdate
    rw [hms, hdb]
    exact List.mem_map.mpr ⟨m, hm,
      (flushRow_receipt 0 rfl ((dirty_receipt rfl).mpr hs) m).trans (if_pos rfl)⟩
  -- so the row that the step changes is this one
  have hrun' := Run.single hselect
  obtain ⟨-, hsame | ⟨q, hq, r, hr, hdir, -, hreturned, now, hms⟩⟩ :=
    h.steps [] t (.commit 0) v hrun' List.not_mem_nil hstep
  · rw [hsame, hdb] at hmarked
    have heq := Store.eq_of_id hmarked hm rfl
    exact absurd (congrArg Message.status heq).symm hs
  · rw [hdb] at hr hms
    by_cases hid : m.id = r.id
    · obtain rfl := Store.eq_of_id hm hr hid
      refine ⟨hdir, fun hntfy => ?_⟩
      have hrun₂ := hrun.append hrun'
      exact not_returned_of_ntfy hrun₂ (hdb ▸ hm) hntfy hreturned
    · -- a row the step leaves alone is not marked
      have hkept : m ∈ v.db.messages := by
        rw [hms]
        exact List.mem_map.mpr ⟨m, hm, if_neg hid⟩
      have heq := Store.eq_of_id hmarked hkept rfl
      exact absurd (congrArg Message.status heq).symm hs

end

/-- **Receipts touch only the message they are about**, exactly when at most one row carries
    the id and, for `sms:delivered`, that row is delivered already or is an outbound text
    message.  An event without an id, or with one that no row can carry, touches nothing. -/
theorem receipt_confined_iff {lib : Lib} {cfg : Settings} {env : Env} {tr : List Action}
    {s : Sys} {call : Nat} {event : List (PyStr × Json PyStr)} {delivered : Bool}
    (hrun : Run lib cfg (Sys.init env) tr s) (hevent : IsReceipt event delivered)
    (hpc : s.inbounds call = begin lib cfg (.ok (.obj event))) :
    Confined lib cfg tr s call (Inbound.receiptId lib event) ↔
      ∀ p, Inbound.receiptId lib event = .text p → p ≠ "" → Attributable s.db p delivered := by
  rw [begin_receipt hevent, beginReceipt] at hpc
  by_cases hid : Inbound.receiptId lib event = ""
  · -- an event without an id is ignored
    rw [if_pos hid] at hpc
    have hnone : ∀ t, ¬ Step lib cfg s (.inbound call .select) t := by
      intro t hstep
      cases (trans_of_step hstep).2 with
      | inbound htrans =>
        rw [hpc] at htrans
        cases htrans
    constructor
    · intro _ p hp hne
      exact absurd (PyStr.text.inj (hp.symm.trans hid)) hne
    · intro _
      refine ⟨fun t hstep => absurd hstep (hnone t), fun tr' u a v hu _ _ => ?_⟩
      obtain ⟨w, hw, -⟩ := hu.cons_inv
      exact absurd hw (hnone w)
  · rw [if_neg hid] at hpc
    generalize Inbound.receiptId lib event = id at hpc hid ⊢
    constructor
    · rintro h p rfl -
      refine ⟨lone_of_confined hpc h, fun hdelivered m hm hcarries => ?_⟩
      subst hdelivered
      by_cases hs : m.status = .delivered
      · exact .inl hs
      · exact .inr (text_of_confined hrun hpc h hm hcarries hs)
    · intro h
      cases id with
      | text p => exact confined_of_attributable hrun hpc (h p rfl fun hp => hid (hp ▸ rfl))
      | lone p => exact confined_of_unbindable hpc rfl

namespace Sample

/-- The gateway pushes that the message it calls `p` was delivered. -/
def deliveredEvent (p : String) : List (PyStr × Json PyStr) :=
  [("event", .str "sms:delivered"), ("payload", .obj [("messageId", .str p)])]

theorem isReceipt_deliveredEvent (p : String) : IsReceipt (deliveredEvent p) true := rfl

/-- The columns of a row that matter to a receipt. -/
structure Carrier where
  status : MessageStatus
  direction : Direction
  transport : Transport
  providerMessageId : Option String
  deriving DecidableEq

def carrier (m : Message) : Carrier :=
  ⟨m.status, m.direction, m.transport, m.providerMessageId⟩

/-- What a lookup by provider id sees, and whether call 1 is yet to come. -/
def carriers (s : Sys) : List Carrier × Bool :=
  (s.db.messages.map carrier,
    match s.inbounds 1 with
    | .idle => true
    | _ => false)

/-- The gateway's receipt arrives while call 1 is yet to come. -/
theorem begin_deliveredEvent {s : Sys} {rows : List Carrier} (h : carriers s = (rows, true))
    (p : String) :
    ∃ t, Step lib cfg s (.inbound 1 (.begin (.ok (.obj (deliveredEvent p))))) t ∧
      t.db.messages.map carrier = rows ∧
      t.inbounds 1 = begin lib cfg (.ok (.obj (deliveredEvent p))) := by
  have hidle : s.inbounds 1 = .idle := by
    have hflag := congrArg Prod.snd h
    simp only [carriers] at hflag
    split at hflag
    · assumption
    · cases hflag
  have hmove : Inbound.move lib cfg s.env (s.db, s.inbounds 1)
      (.begin (.ok (.obj (deliveredEvent p)))) =
      some (s.db, begin lib cfg (.ok (.obj (deliveredEvent p)))) := by
    simp [Inbound.move, Inbound.step, hidle]
  obtain ⟨t, hstep, hdb, ht⟩ := exists_inbound_step rfl hmove
  exact ⟨t, hstep, hdb ▸ congrArg Prod.fst h, ht⟩

end Sample

/-- The receipt for a message that was sent. -/
theorem receipt_confined_iff_sent : ∃ tr s, Run Sample.lib Sample.cfg (Sys.init Sample.env) tr s ∧
    (s.db.messages.map fun m => (m.status, m.providerMessageId)) = [(.sent, some "g1")] ∧
    Confined Sample.lib Sample.cfg tr s 1 "g1" := by
  obtain ⟨s, hrun, hs⟩ : ∃ s, Run Sample.lib Sample.cfg (Sys.init Sample.env) Sample.sent s ∧
      Sample.carriers s = ([⟨.sent, .outbound, .sms, some "g1"⟩], true) :=
    run_of_exec_map (by decide +kernel)
  obtain ⟨t, hstep, hrows, ht⟩ := Sample.begin_deliveredEvent hs "g1"
  obtain ⟨m, hms, hm⟩ := List.map_eq_singleton_iff.mp hrows
  obtain ⟨hstatus, hdir, htransport, hpid⟩ := Sample.Carrier.mk.inj hm
  refine ⟨_, t, hrun.snoc hstep, by rw [hms, List.map_singleton, hstatus, hpid], ?_⟩
  refine (receipt_confined_iff (hrun.snoc hstep) (Sample.isReceipt_deliveredEvent "g1") ht).mpr
    fun p hp _ => ⟨?_, ?_⟩
  · rw [hms]
    intro r hr r' hr' _ _
    rw [List.mem_singleton.mp hr, List.mem_singleton.mp hr']
  · rw [hms]
    intro _ r hr _
    obtain rfl := List.mem_singleton.mp hr
    exact .inr ⟨hdir, by rw [htransport]; decide⟩

/-- The promise, of every reachable store and every receipt. -/
def ReceiptsConfined (lib : Lib) (cfg : Settings) (env : Env) : Prop :=
  ∀ tr s call event delivered, Run lib cfg (Sys.init env) tr s → IsReceipt event delivered →
    s.inbounds call = begin lib cfg (.ok (.obj event)) →
    Confined lib cfg tr s call (Inbound.receiptId lib event)

/-- A text message is received under the id `e1`, and a receipt names `e1`: the inbound row
    is marked delivered. -/
theorem not_receiptsConfined_inbound :
    ¬ ReceiptsConfined Sample.lib Sample.cfg Sample.env := by
  intro hclaim
  obtain ⟨s, hrun, hs⟩ : ∃ s, Run Sample.lib Sample.cfg (Sys.init Sample.env)
        (Sample.deliver 0 "e1" ++ Sample.store 0 "m1" [] 1) s ∧
      Sample.carriers s = ([⟨.received, .inbound, .sms, some "e1"⟩], true) :=
    run_of_exec_map (by decide +kernel)
  obtain ⟨t, hstep, hrows, ht⟩ := Sample.begin_deliveredEvent hs "e1"
  obtain ⟨m, hms, hm⟩ := List.map_eq_singleton_iff.mp hrows
  obtain ⟨hstatus, hdir, -, hpid⟩ := Sample.Carrier.mk.inj hm
  have hconfined := hclaim _ t 1 _ true (hrun.snoc hstep) (Sample.isReceipt_deliveredEvent "e1") ht
  obtain ⟨hout, -⟩ := text_of_confined (m := m) (hrun.snoc hstep) ht hconfined
    (by rw [hms]; exact List.mem_singleton.mpr rfl) hpid (by rw [hstatus]; decide)
  rw [hdir] at hout
  cases hout

end SmsRelay
