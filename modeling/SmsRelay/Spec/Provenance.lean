import SmsRelay.Spec.Fanout
import SmsRelay.Spec.Receive

/-!
# Where inbound rows come from

Every inbound row of the database goes back to one event that the gateway delivered, and
its columns are what the handler made of that event.  Every delivery belongs to such a row.

## Key results

- `receives_unique`: an id is drawn for one event
- `provenance_reachable`: each inbound row is what the handler made of its event
- `parents_reachable`: deliveries belong to inbound messages
-/

namespace SmsRelay

open Transition Inbound

/-! ## The event of a call -/

/-- The request that the label begins call `call` with. -/
def Action.begun (call : Nat) : Action → Option (Except LoadsError (Json PyStr))
  | .inbound c (.begin request) => if c = call then some request else none
  | _ => none

/-- The request that call `call` has begun with last. -/
def eventOf (call : Nat) (tr : List Action) : Option (Except LoadsError (Json PyStr)) :=
  (tr.filterMap (Action.begun call)).getLast?

/-- The run drew `id` for the message of `event`, at a flush whose clock showed `now`. -/
def Receives (tr : List Action) (id : String) (event : List (PyStr × Json PyStr))
    (now : Time) : Prop :=
  ∃ tr₁ call tr₂, tr = tr₁ ++ .inbound call (.flush id now) :: tr₂ ∧
    eventOf call tr₁ = some (.ok (.obj event))

section
variable {tr : List Action} {id : String} {event event' : List (PyStr × Json PyStr)}
  {now now' : Time} {call : Nat}

theorem eventOf_begin (request : Except LoadsError (Json PyStr)) :
    eventOf call (tr ++ [.inbound call (.begin request)]) = some request := by
  simp [eventOf, Action.begun]

/-- Only a call's own `begin` changes its event. -/
theorem eventOf_append {a : Action} (h : a.begun call = none) :
    eventOf call (tr ++ [a]) = eventOf call tr := by
  simp [eventOf, h]

theorem Receives.extend (h : Receives tr id event now) (tr' : List Action) :
    Receives (tr ++ tr') id event now := by
  obtain ⟨tr₁, call, tr₂, rfl, hevent⟩ := h
  exact ⟨tr₁, call, tr₂ ++ tr', by simp, hevent⟩

end

section
variable {lib : Lib} {cfg : Settings} {env : Env} {s t : Sys} {a : Action} {tr : List Action}
  {id : String} {event event' : List (PyStr × Json PyStr)} {now now' : Time} {call : Nat}

/-- The ids of a run stay used. -/
theorem used_run (hrun : Run lib cfg (Sys.init env) tr t) :
    ∀ a ∈ tr, ∀ id ∈ a.uuids, id ∈ t.used := by
  induction hrun with
  | nil => simp
  | @snoc tr s a t hrun hstep ih =>
    intro b hb id hid
    rw [used_step (trans_of_step hstep).2, List.mem_append]
    rcases List.mem_append.mp hb with hold | hlast
    · exact .inr (ih b hold id hid)
    · obtain rfl := List.mem_singleton.mp hlast
      exact .inl hid

/-- No id is drawn twice. -/
theorem draws_once (hrun : Run lib cfg (Sys.init env) tr t) (id : String) :
    tr.Pairwise fun b a => id ∈ b.uuids → ¬ id ∈ a.uuids :=
  hrun.pairwise_never fun _ _ _ _ hrun hstep hid b hb hid' =>
    (trans_of_step hstep).1.2 id hid (used_run hrun b hb id hid')

/-- **An id is drawn for one event.** -/
theorem receives_unique (hrun : Run lib cfg (Sys.init env) tr t) (h : Receives tr id event now)
    (h' : Receives tr id event' now') : event = event' ∧ now = now' := by
  -- Both drew the id, so both are the same flush of the run
  obtain ⟨tr₁, call, tr₂, rfl, hevent⟩ := h
  obtain ⟨tr₁', call', tr₂', heq, hevent'⟩ := h'
  obtain ⟨rfl, hlabel, -⟩ := Run.position_unique (draws_once hrun id) heq
    (by simp [Action.uuids]) (by simp [Action.uuids])
  simp only [Action.inbound.injEq, Act.flush.injEq] at hlabel
  obtain ⟨rfl, -, rfl⟩ := hlabel
  simp only [hevent, Option.some.injEq, Except.ok.injEq, Json.obj.injEq] at hevent'
  exact ⟨hevent', rfl⟩

end

/-! ## Rows and their events -/

/-- The row is what the handler made of an event of the run, up to later changes. -/
def Came (lib : Lib) (cfg : Settings) (tr : List Action) (m : Message) : Prop :=
  ∃ event now number r, Receives tr m.id event now ∧
    fromNumber lib cfg (extract lib event).sender = .ok number ∧
    newMessage lib (draftOf lib event number) m.id now = some r ∧ m.content = r.content

namespace Inbound

/-- The draft a call has in hand. -/
def Pc.draft : Pc → Option Draft
  | .dedup draft => some draft
  | .adding draft => some draft
  | _ => none

variable {lib : Lib} {cfg : Settings} {env : Env} {db db' : Store} {pc pc' : Pc} {a : Act}

/-- The draft of a call is that of its event. -/
theorem draft_begin {request : Except LoadsError (Json PyStr)} {draft : Draft}
    (h : (begin lib cfg request).draft = some draft) :
    ∃ event number, request = .ok (.obj event) ∧
      fromNumber lib cfg (extract lib event).sender = .ok number ∧
      draft = draftOf lib event number := by
  have hmessage : ∀ event, (beginMessage lib cfg event).draft = some draft →
      ∃ number, fromNumber lib cfg (extract lib event).sender = .ok number ∧
        draft = draftOf lib event number := fun event hdraft => by
    unfold beginMessage at hdraft
    dsimp only at hdraft
    split at hdraft
    · cases hdraft
    · split at hdraft
      · cases hdraft
      · next number hnumber =>
        refine ⟨number, hnumber, ?_⟩
        split at hdraft <;> exact (Option.some.inj hdraft).symm
  have hreceipt : ∀ event delivered, (beginReceipt lib event delivered).draft ≠ some draft :=
    fun event delivered hdraft => by
      unfold beginReceipt at hdraft
      dsimp only at hdraft
      split at hdraft <;> cases hdraft
  -- Two kinds of events carry a text, two a receipt, and the others nothing
  unfold begin at h
  split at h
  · cases h
  · cases h
  · next event =>
    split at h
    · exact (hmessage event h).elim fun number hnumber => ⟨event, number, rfl, hnumber⟩
    · exact (hmessage event h).elim fun number hnumber => ⟨event, number, rfl, hnumber⟩
    · exact absurd h (hreceipt event true)
    · exact absurd h (hreceipt event false)
    · cases h
  · cases h

/-- A draft in hand was there before, or is that of the event just begun with. -/
theorem Trans.draft (h : Trans lib cfg env db pc a db' pc') {draft : Draft}
    (hdraft : pc'.draft = some draft) :
    (pc.draft = some draft ∧ ∀ request, a ≠ .begin request) ∨
      ∃ event number, a = .begin (.ok (.obj event)) ∧
        fromNumber lib cfg (extract lib event).sender = .ok number ∧
        draft = draftOf lib event number := by
  -- Only a call that begins comes to a new draft
  cases h with
  | begin =>
    obtain ⟨event, number, rfl, hnumber, rfl⟩ := draft_begin hdraft
    exact .inr ⟨event, number, rfl, hnumber, rfl⟩
  | dedup =>
    refine .inl ⟨?_, by simp⟩
    unfold afterDedup at hdraft
    split at hdraft
    · cases hdraft
    · split at hdraft
      · cases hdraft
      · cases hdraft
      · exact hdraft
  | enqueue henq =>
    unfold Inbound.enqueue at henq
    split at henq
    · obtain rfl := Option.some.inj henq
      cases hdraft
    · dsimp only at henq
      split at henq
      · split at henq <;> (obtain rfl := Option.some.inj henq; cases hdraft)
      · cases henq
  | receipt =>
    unfold afterReceiptSelect at hdraft
    split at hdraft
    · cases hdraft
    · split at hdraft
      · cases hdraft
      · cases hdraft
      · split at hdraft <;> cases hdraft
  | flush | refuse | commit | unbindable | receiptCommit | dbError => cases hdraft

/-- A row in hand was there before, or is made of the draft just flushed. -/
theorem Trans.row (h : Trans lib cfg env db pc a db' pc') {m : Message} (hm : m ∈ pc'.rows) :
    m ∈ pc.rows ∨ ∃ draft now, pc.draft = some draft ∧ a = .flush m.id now ∧
      newMessage lib draft m.id now = some m := by
  cases h with
  | begin => simp [(begin_rows _).1] at hm
  | dedup => simp [(afterDedup_rows _).1] at hm
  | @flush draft uuid now m' hnew =>
    obtain rfl := List.mem_singleton.mp hm
    obtain ⟨rfl, -⟩ := newMessage_inbound hnew
    exact .inr ⟨draft, now, rfl, rfl, hnew⟩
  | enqueue henq =>
    rcases (enqueue_rows henq).1 with hnil | hrows
    · simp [hnil] at hm
    · rw [hrows] at hm
      exact .inl hm
  | receipt => simp [afterReceiptSelect_cases.1] at hm
  | refuse | commit | unbindable | receiptCommit | dbError => simp [Pc.rows] at hm

end Inbound

/-- What a call has in hand goes back to its event. -/
structure CallProvenance (lib : Lib) (cfg : Settings) (tr : List Action) (call : Nat)
    (pc : Pc) : Prop where
  draft : ∀ draft, pc.draft = some draft →
    ∃ event number, eventOf call tr = some (.ok (.obj event)) ∧
      fromNumber lib cfg (extract lib event).sender = .ok number ∧
      draft = draftOf lib event number
  row : ∀ m ∈ pc.rows, Came lib cfg tr m

/-- **Everything inbound goes back to an event.** -/
structure Provenance (lib : Lib) (cfg : Settings) (tr : List Action) (s : Sys) : Prop where
  call : ∀ call, CallProvenance lib cfg tr call (s.inbounds call)
  stored : ∀ m ∈ s.db.messages, m.direction = .inbound → Came lib cfg tr m

section
variable {lib : Lib} {cfg : Settings} {env : Env} {s t : Sys} {a : Action} {tr : List Action}
  {m m' : Message}

theorem Came.extend (h : Came lib cfg tr m) (tr' : List Action) : Came lib cfg (tr ++ tr') m := by
  obtain ⟨event, now, number, r, hreceives, hrest⟩ := h
  exact ⟨event, now, number, r, hreceives.extend tr', hrest⟩

/-- A later version of a row came from the same event. -/
theorem Came.of_content (h : Came lib cfg tr m) (hcontent : m'.content = m.content) :
    Came lib cfg tr m' := by
  obtain ⟨event, now, number, r, hreceives, hnumber, hnew, heq⟩ := h
  have hid := Message.id_eq_of_content hcontent
  exact ⟨event, now, number, r, hid ▸ hreceives, hnumber, hid ▸ hnew, hcontent.trans heq⟩

/-- What was received has no key. -/
theorem Came.idemKey (h : Came lib cfg tr m) : m.idemKey = none := by
  obtain ⟨_, _, _, r, -, -, hnew, hcontent⟩ := h
  obtain ⟨-, -, -, -, -, -, hkey, -⟩ := newMessage_inbound hnew
  rw [Message.idemKey_eq_of_content hcontent, Message.idemKey, hkey]
  rfl

/-- A call that has nothing in hand. -/
theorem CallProvenance.of_empty {call : Nat} {pc : Pc} (hdraft : pc.draft = none)
    (hrows : pc.rows = []) : CallProvenance lib cfg tr call pc where
  draft draft h := by
    rw [hdraft] at h
    cases h
  row m hm := by
    rw [hrows] at hm
    cases hm

/-- A call that does not move keeps its event, its draft and its row. -/
theorem CallProvenance.extend {call : Nat} {pc : Pc} (h : CallProvenance lib cfg tr call pc)
    (ha : a.begun call = none) : CallProvenance lib cfg (tr ++ [a]) call pc where
  draft draft hdraft := by
    rw [eventOf_append ha]
    exact h.draft draft hdraft
  row m hm := (h.row m hm).extend [a]

/-- Only the call itself begins. -/
theorem begun_of_other {call : Nat} (h : ∀ b, a ≠ .inbound call b) : a.begun call = none := by
  cases a with
  | inbound call' b =>
    cases b with
    | begin request => exact if_neg fun heq => h (.begin request) (by rw [heq])
    | _ => rfl
  | _ => rfl

/-- A step of the call. -/
theorem CallProvenance.move {call : Nat} {pc pc' : Pc} {b : Act} {db db' : Store}
    (hp : CallProvenance lib cfg tr call pc) (h : Inbound.Trans lib cfg env db pc b db' pc') :
    CallProvenance lib cfg (tr ++ [.inbound call b]) call pc' where
  draft draft hdraft := by
    -- the draft is the one before, or the step is the request itself
    obtain ⟨hold, hother⟩ | ⟨event, number, rfl, hnumber, rfl⟩ := h.draft hdraft
    · have hbegun : Action.begun call (.inbound call b) = none := by
        cases b with
        | begin request => exact absurd rfl (hother request)
        | _ => rfl
      rw [eventOf_append hbegun]
      exact hp.draft draft hold
    · exact ⟨event, number, eventOf_begin _, hnumber, rfl⟩
  row m hm := by
    obtain hold | ⟨draft, now, hdraft, rfl, hnew⟩ := h.row hm
    · exact (hp.row m hold).extend _
    · obtain ⟨event, number, hevent, hnumber, rfl⟩ := hp.draft draft hdraft
      exact ⟨event, now, number, m, ⟨tr, call, [], rfl, hevent⟩, hnumber, hnew, rfl⟩

/-- The calls of the next state: one has moved, or a crash has ended them. -/
private theorem provenance_calls (hp : ∀ call, CallProvenance lib cfg tr call (s.inbounds call))
    (h : Trans lib cfg s a t) (call : Nat) :
    CallProvenance lib cfg (tr ++ [a]) call (t.inbounds call) := by
  cases h.inbound_step call with
  | other hother hpc =>
    rw [hpc]
    exact (hp call).extend (begun_of_other hother)
  | crash hpc =>
    rw [hpc]
    apply CallProvenance.of_empty <;> cases s.inbounds call <;> rfl
  | own h => exact (hp call).move h

theorem provenance_step (hp : Provenance lib cfg tr s) (hi : Inv cfg s)
    (hstep : Step lib cfg s a t) : Provenance lib cfg (tr ++ [a]) t := by
  obtain ⟨-, h⟩ := trans_of_step hstep
  refine ⟨provenance_calls hp.call h, fun m hm hdir => ?_⟩
  rcases rows_evolved hi h hm with ⟨r, hr, hevolved, -⟩ | ⟨c, -, hrow⟩
  · have hdir' : r.direction = .inbound :=
      (Message.direction_eq_of_content hevolved.frame).symm.trans hdir
    exact ((hp.stored r hr hdir').of_content hevolved.frame).extend [a]
  · cases c with
    | inl call =>
      -- the rows of the send API are outbound
      have hout : m.direction = .outbound := (hi.call_row _ m hrow).1.2.1
      rw [hout] at hdir
      cases hdir
    | inr call => exact ((hp.call call).row m hrow).extend [a]

theorem provenance_reachable (hrun : Run lib cfg (Sys.init env) tr t) : Provenance lib cfg tr t :=
  hrun.traceInvariant (P := fun tr s => Provenance lib cfg tr s)
    ⟨fun _ => .of_empty rfl rfl, fun _ h => by cases h⟩
    fun _ _ _ _ hrun hp hstep => provenance_step hp (inv_reachable hrun) hstep

end

/-! ## Deliveries and their messages -/

/-- Deliveries belong to inbound messages. -/
structure Parents (s : Sys) : Prop where
  stored : ∀ d ∈ s.db.deliveries, ∀ m ∈ s.db.messages, m.id = d.messageId → m.direction = .inbound
  fanned : ∀ call m ds, s.inbounds call = .fanned m ds → ∀ d ∈ ds, d.messageId = m.id

section
variable {lib : Lib} {cfg : Settings} {env : Env} {s t : Sys} {a : Action} {tr : List Action}

/-- The deliveries in hand are for the message in hand. -/
theorem Inbound.Trans.fanned {db db' : Store} {pc : Inbound.Pc} {b : Inbound.Act} {m : Message}
    {ds : List WebhookDelivery} (h : Inbound.Trans lib cfg env db pc b db' (.fanned m ds)) :
    ∀ d ∈ ds, d.messageId = m.id := by
  generalize hpc : Pc.fanned m ds = pc' at h
  -- Only the enqueue leads to this point
  cases h with
  | @begin event =>
    have hrows : (Inbound.begin lib cfg event).rows = [] := (begin_rows event).1
    rw [← hpc] at hrows
    cases hrows
  | @dedup draft =>
    have hrows : (afterDedup db draft).rows = [] := (afterDedup_rows draft).1
    rw [← hpc] at hrows
    cases hrows
  | enqueue henq =>
    subst hpc
    unfold Inbound.enqueue at henq
    split at henq
    · cases henq
    · dsimp only at henq
      split at henq
      · split at henq
        · next hds =>
          obtain ⟨rfl, rfl⟩ := Pc.fanned.inj (Option.some.inj henq)
          exact fun d hd => (messageId_enqueueFanout hds hd).1
        · cases henq
      · cases henq
  | @receipt providerId delivered =>
    have hrows : (afterReceiptSelect db providerId delivered).rows = [] :=
      afterReceiptSelect_cases.1
    rw [← hpc] at hrows
    cases hrows
  | flush | refuse | commit | unbindable | receiptCommit | dbError => cases hpc

private theorem parents_fanned (hp : Parents s) (h : Trans lib cfg s a t) :
    ∀ call m ds, t.inbounds call = .fanned m ds → ∀ d ∈ ds, d.messageId = m.id := by
  intro call m ds hpc
  cases h.inbound_step call with
  | other _ hsame => exact hp.fanned call m ds (hsame ▸ hpc)
  | crash hcrashed =>
    -- a call that a crash cuts off holds no rows
    have hrows : (t.inbounds call).rows = [] := by rw [hcrashed, Pc.crashed_rows]
    rw [hpc] at hrows
    cases hrows
  | own h =>
    rw [hpc] at h
    exact h.fanned

/-- A stored message, or one just committed, that a delivery of the last state refers to is
    the one it referred to before. -/
private theorem parent_kept (hi : Inv cfg s) (hp : Parents s) (h : Trans lib cfg s a t)
    {d : WebhookDelivery} (hd : d ∈ s.db.deliveries) {m : Message} (hm : m ∈ t.db.messages)
    (hid : m.id = d.messageId) : m.direction = .inbound := by
  rcases rows_evolved hi h hm with ⟨r, hr, hevolved, hsame⟩ | ⟨c, -, hrow⟩
  · rw [Message.direction_eq_of_content hevolved.frame]
    exact hp.stored d hd r hr (hsame.symm.trans hid)
  · -- the message of `d` is stored, so no call has a row under its id
    obtain ⟨r, hr, hrid⟩ := List.mem_map.mp (s.db.integrity.fkMessage d hd)
    exact absurd ⟨m, hrow, hid.trans hrid.symm⟩ ((hi.row r hr).2.2 c)

theorem parents_step (hp : Parents s) (hi : Inv cfg s) (hf : FanInv s)
    (hstep : Step lib cfg s a t) : Parents t := by
  obtain ⟨-, h⟩ := trans_of_step hstep
  refine ⟨fun d hd m hm hid => ?_, parents_fanned hp h⟩
  -- The delivery was there, was committed by the fan-out loop, or came with its message
  cases deliveries_origin hf h hd with
  | kept hold _ => exact parent_kept hi hp h hold hm hid
  | @committed now ses o _ hpc ho hold heq =>
    have hcontent : d.content = o.loaded.content := by
      rw [heq]
      exact (hf.handled o (by rw [hpc]; exact ho)).content
    have hmessage : d.messageId = o.loaded.messageId := congrArg (·.2.1) hcontent
    exact parent_kept hi hp h hold hm (hid.trans hmessage)
  | @inserted call now _ hd' _ =>
    -- the message is the one the call commits together with the delivery
    cases hpc : s.inbounds call with
    | fanned m₀ ds =>
      rw [hpc] at hd'
      have hmid : m.id = m₀.id := hid.trans (hp.fanned call m₀ ds hpc d hd')
      have hrow₀ : m₀ ∈ s.callRows (.inr call) := by simp [Sys.callRows, hpc, Pc.rows]
      rcases rows_evolved hi h hm with ⟨r, hr, -, hsame⟩ | ⟨c, -, hrow⟩
      · exact absurd ⟨m₀, hrow₀, hmid.symm.trans hsame⟩ ((hi.row r hr).2.2 (.inr call))
      · obtain rfl := hi.call_unique c (.inr call) m₀.id ⟨m, hrow, hmid⟩ ⟨m₀, hrow₀, rfl⟩
        exact (hi.call_row _ m hrow).1.2.1
    | _ =>
      rw [hpc] at hd'
      cases hd'

/-- **Deliveries belong to inbound messages**, in every reachable state. -/
theorem parents_reachable (hrun : Run lib cfg (Sys.init env) tr t) : Parents t :=
  hrun.traceInvariant (P := fun _ s => Parents s)
    ⟨fun _ h => (by cases h), fun _ _ _ h => (by cases h)⟩
    fun _ _ _ _ hrun hp hstep =>
      parents_step hp (inv_reachable hrun) (fanInv_reachable hrun) hstep

end

end SmsRelay
