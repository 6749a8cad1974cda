import SmsRelay.Spec.Channel

/-!
# Claim before send

The send loop commits `sending` before it hands a message to ntfy or to the provider, and
keeps the row in hand until the outcome is committed.  A trace says which calls are in
flight: the ones made and not answered, none of which outlives the process.

## Key results

- `inFlight_eq`: the calls in flight are the one the loop waits for, if any
- `Trans.held_cases`, `Trans.keeps`: what the loop takes in hand, and what it leaves alone
- `calling_run`: nothing happens to a row while its call is in flight
-/

namespace SmsRelay

open UnitOfWork Transition

/-! ## What the loop holds -/

namespace SendLoop

/-- The message of the call the loop waits for. -/
def Pc.calling : Pc → Option String
  | .publishing m => some m.id
  | .sending m => some m.id
  | _ => none

/-- The message the iteration has taken. -/
def Pc.inHand : Pc → Option String
  | .claimed o => some o.loaded.id
  | .toPublish m => some m.id
  | .publishing m => some m.id
  | .acknowledged o => some o.loaded.id
  | .fellBack o => some o.loaded.id
  | .limiting m => some m.id
  | .sending m => some m.id
  | .finishing o => some o.loaded.id
  | .unbindable m => some m.id
  | _ => none

/-- The rows the iteration may write: the ones it requeues, or the one it has taken. -/
def Pc.held : Pc → List String
  | .requeueing objs => objs.map fun o => o.loaded.id
  | pc => pc.inHand.toList

variable {lib : Lib} {cfg : Settings} {db db' : Store} {pc pc' : Pc} {a : Act} {id : String}

/-- The objects of a commit are rows the iteration holds. -/
theorem Pc.held_of_objs {o : Tracked Message} (h : o ∈ pc.objs) : o.loaded.id ∈ pc.held := by
  cases pc with
  | requeueing objs => exact List.mem_map_of_mem h
  | claimed | acknowledged | fellBack | finishing =>
    obtain rfl := List.mem_singleton.mp h
    exact List.mem_singleton.mpr rfl
  | _ => cases h

theorem afterClaim_holds (m : Message) :
    (afterClaim m).calling = none ∧ (afterClaim m).held = [m.id] := by
  unfold afterClaim
  split <;> exact ⟨rfl, rfl⟩

theorem afterPublish_holds (m : Message) (reply : HttpReply) (now : Time) :
    (afterPublish m reply now).calling = none ∧
      ∀ id ∈ (afterPublish m reply now).held, id = m.id := by
  unfold afterPublish
  split
  · split <;> simp [Pc.calling, Pc.held, Pc.inHand]
  · split <;> simp [Pc.calling, Pc.held, Pc.inHand]

theorem afterSend_holds (lib : Lib) (cfg : Settings) (m : Message) (now : Time)
    (result : Except PyError SendResult) :
    (afterSend lib cfg m now result).calling = none ∧
      ∀ id ∈ (afterSend lib cfg m now result).held, id = m.id := by
  unfold afterSend
  split
  · split <;> simp [Pc.calling, Pc.held, Pc.inHand]
  · split <;> simp [Pc.calling, Pc.held, Pc.inHand]
  · simp [Pc.calling, Pc.held, Pc.inHand]

/-- A saved object is the object's row. -/
theorem saved_id (hi : SendInv cfg db pc) {o : Tracked Message} (ho : o ∈ pc.objs) (now : Time) :
    (o.saved now).id = o.loaded.id := by
  rw [saved_eq]
  exact hi.keepsKeys o ho

/-- **What a step takes in hand**: the stuck rows of a requeue, or the due row of a claim. -/
theorem Trans.held_cases (hi : SendInv cfg db pc) (h : Trans lib cfg db pc a db' pc')
    (hid : id ∈ pc'.held) : id ∈ pc.held ∨
      (∃ now stamp, a = .requeueSelect now stamp ∧
        ∃ m ∈ db.messages, m.id = id ∧ isStuck cfg now m) ∨
      ∃ now, a = .claimSelect now (some id) ∧ ∃ m ∈ db.messages, m.id = id ∧ isDue now m := by
  -- Only the two selects take rows in hand; the other steps pass them on
  cases h with
  | requeueNone | requeued | claimNone | acknowledged | finishing | dbError => cases hid
  | @requeueSome now stamp =>
    obtain ⟨o, ho, rfl⟩ := List.mem_map.mp hid
    obtain ⟨m, hm, rfl⟩ := List.mem_map.mp ho
    obtain ⟨hmem, hstuck⟩ := List.mem_filter.mp hm
    exact .inr (.inl ⟨now, stamp, rfl, m, hmem, rfl, hstuck⟩)
  | @claimSome now m hm hdue =>
    obtain rfl := List.mem_singleton.mp hid
    exact .inr (.inr ⟨now, rfl, m, hm, rfl, hdue.1⟩)
  | @claimed o now _ hdb =>
    -- the claimed row goes on under its id
    rw [(afterClaim_holds _).2, saved_id hi (List.mem_singleton.mpr rfl) now] at hid
    exact .inl hid
  | @fellBack o now _ hdb =>
    have hsaved : id = (o.saved now).id := List.mem_singleton.mp hid
    rw [saved_id hi (List.mem_singleton.mpr rfl) now] at hsaved
    exact .inl (List.mem_singleton.mpr hsaved)
  | publish | providerSend => exact .inl hid
  | publishReply => exact .inl (List.mem_singleton.mpr ((afterPublish_holds _ _ _).2 id hid))
  | providerReply => exact .inl (List.mem_singleton.mpr ((afterSend_holds _ _ _ _ _).2 id hid))

/-- **What a step leaves alone**: every row that the iteration does not hold. -/
theorem Trans.keeps (h : Trans lib cfg db pc a db' pc') {m : Message} (hm : m ∈ db.messages)
    (hheld : m.id ∉ pc.held) : m ∈ db'.messages := by
  rcases h.db_cases with rfl | ⟨now, -, hdb⟩
  · exact hm
  · obtain ⟨-, hms, -⟩ := Store.updateMessages_eq_some.mp hdb
    rw [hms]
    refine List.mem_map.mpr ⟨m, hm, flushRow_eq_self now fun o ho _ hkey => ?_⟩
    have hid : m.id = o.loaded.id := hkey
    exact hheld (hid ▸ Pc.held_of_objs ho)

end SendLoop

/-! ## Calls in flight -/

/-- What a label does to the calls in flight, given by message. -/
def Action.calls (flight : List String) : Action → List String
  | .send (.publish id) => id :: flight
  | .send (.providerSend id) => id :: flight
  | .send (.publishReply id _ _) => flight.erase id
  | .send (.providerReply id _ _) => flight.erase id
  | .crash => []
  | _ => flight

/-- The calls of `publish` and `provider.send` that a trace has made and that are not
    answered; a crash ends them with the process. -/
def inFlight (tr : List Action) : List String := tr.foldl Action.calls []

/-- The label ends the call for the message. -/
def Action.endsCall (id : String) : Action → Bool
  | .send (.publishReply id' _ _) => id' = id
  | .send (.providerReply id' _ _) => id' = id
  | .crash => true
  | _ => false

theorem inFlight_snoc (tr : List Action) (a : Action) :
    inFlight (tr ++ [a]) = a.calls (inFlight tr) := List.foldl_append

section
variable {lib : Lib} {cfg : Settings} {env : Env} {s t : Sys} {tr tr' : List Action} {a : Action}
  {id : String} {m : Message}

/-- The loop waits for one call at a time, and for each call it makes. -/
theorem calls_step (h : Trans lib cfg s a t) :
    a.calls s.send.calling.toList = t.send.calling.toList := by
  cases h with
  | send h =>
    generalize s.send = pc at h
    cases h with
    | @claimed o now =>
      show [] = (SendLoop.afterClaim (o.saved now)).calling.toList
      rw [(SendLoop.afterClaim_holds _).1]
      rfl
    | @publishReply m reply now =>
      show [m.id].erase m.id = (SendLoop.afterPublish m reply now).calling.toList
      rw [(SendLoop.afterPublish_holds _ _ _).1]
      simp
    | @providerReply m reply now result =>
      show [m.id].erase m.id = (SendLoop.afterSend lib cfg m now result).calling.toList
      rw [(SendLoop.afterSend_holds _ _ _ _ _).1]
      simp
    | @dbError pc hdb =>
      -- a call is not a database operation
      cases pc <;> simp_all [Action.calls, SendLoop.Pc.calling, SendLoop.Pc.awaitsDb]
    | _ => rfl
  | status | fanout | prune | sendMessage | inbound | configure | crash => rfl

/-- **The calls in flight are the one the loop waits for, if any.** -/
theorem inFlight_eq (hrun : Run lib cfg (Sys.init env) tr s) :
    inFlight tr = s.send.calling.toList :=
  hrun.traceInvariant (P := fun tr s => inFlight tr = s.send.calling.toList) rfl
    fun tr _ a _ _ heq hstep => by
      rw [inFlight_snoc, heq]
      exact calls_step (trans_of_step hstep).2

/-- The row of the message in flight is committed as being sent. -/
theorem sending_of_calling (hi : Inv cfg s) (h : s.send.calling = some id) :
    ∃ m ∈ s.db.messages, m.id = id ∧ m.status = .sending := by
  have hsend := hi.send
  generalize s.send = pc at h hsend
  cases pc with
  | publishing m => exact ⟨m, hsend.1, Option.some.inj h, hsend.2.1⟩
  | sending m => exact ⟨m, hsend.1, Option.some.inj h, hsend.2.1⟩
  | _ => cases h

/-- A step that does not move the send loop leaves what it waits for. -/
theorem send_of_other (h : Trans lib cfg s a t) (ha : ∀ b, a ≠ .send b) (hcrash : a ≠ .crash) :
    t.send = s.send := by
  cases h with
  | send => exact absurd rfl (ha _)
  | crash => exact absurd rfl hcrash
  | status | fanout | prune | sendMessage | inbound | configure => rfl

/-- While it waits for a call, the loop takes no step but the end of the call. -/
theorem ends_of_calling (h : Trans lib cfg s a t) (hid : s.send.calling = some id)
    (ha : a.endsCall id = false) : (∀ b, a ≠ .send b) ∧ a ≠ .crash := by
  constructor
  · rintro b rfl
    cases h with
    | send h =>
      -- the only steps out of a call are the two replies
      generalize s.send = pc at h hid
      cases h with
      | publishReply | providerReply =>
        obtain rfl := Option.some.inj hid
        simp [Action.endsCall] at ha
      | @dbError pc hdb => cases pc <;> simp_all [SendLoop.Pc.calling, SendLoop.Pc.awaitsDb]
      | _ => cases hid
  · rintro rfl
    cases ha

/-- **While a call is in flight nothing happens to its row**, whatever the other parties
    do and however long it takes. -/
theorem calling_run (hi : Inv cfg s) (hrun : Run lib cfg s tr' t) (hid : s.send.calling = some id)
    (hends : ∀ a ∈ tr', a.endsCall id = false) :
    t.send = s.send ∧ ∀ m ∈ s.db.messages, m.id = id → m ∈ t.db.messages := by
  obtain ⟨r, hr, hrid, hsending⟩ := sending_of_calling hi hid
  suffices h : t.send = s.send ∧ r ∈ t.db.messages from
    ⟨h.1, fun m hm hmid => Store.eq_of_id hm hr (hmid.trans hrid.symm) ▸ h.2⟩
  -- Induction on the run: the loop waits, and the others leave rows in `sending` alone
  induction hrun with
  | nil => exact ⟨rfl, hr⟩
  | @snoc tr u a v hrun hstep ih =>
    obtain ⟨hsend, hmem⟩ := ih fun a ha => hends a (List.mem_append_left _ ha)
    have hiu := inv_run hi hrun
    obtain ⟨-, h⟩ := trans_of_step hstep
    obtain ⟨hother, hcrash⟩ := ends_of_calling h (by rw [hsend]; exact hid)
      (hends a (List.mem_append_right _ (List.mem_singleton.mpr rfl)))
    exact ⟨(send_of_other h hother hcrash).trans hsend,
      hiu.keeps_queue h hother hmem fun hleft => hleft.2 hsending⟩

end

end SmsRelay
