import SmsRelay.Spec.Fanout

/-!
# The write lock during a webhook POST

SQLite has one write lock, and an `UPDATE` takes it until the transaction ends.  The
fan-out loop assigns attributes only, but the lookup of the next message flushes them
when it has to ask the database.

## Key results

- `Hand`: what the session knows when a delivery is in hand
- `write_lock_iff`: at a `POST` no `UPDATE` is open exactly when all deliveries handled
  before it are for the same message
-/

namespace SmsRelay

open UnitOfWork Transition

namespace FanoutLoop

/-- The messages the session may still refer to. -/
def Session.held (ses : Session) : List Message := ses.message.toList ++ ses.identity

/-- There is no message under the id, neither in the database nor in the session. -/
structure Absent (s : Sys) (ses : Session) (id : String) : Prop where
  settled : s.Settled id
  database : ∀ m ∈ s.db.messages, m.id ≠ id
  session : ∀ m ∈ ses.held, m.id ≠ id

/-- The session between two deliveries. -/
structure LockInv (s : Sys) (ses : Session) : Prop where
  fresh : ses.objs = [] → ses.updated = false ∧ ses.held = []
  same : ses.updated = false → ∀ o ∈ ses.objs, (∀ m ∈ ses.held, m.id = o.loaded.messageId) ∧
    ∀ o' ∈ ses.objs, o'.loaded.messageId = o.loaded.messageId
  locked : ∀ id, ses.objs ≠ [] → (∀ o ∈ ses.objs, o.loaded.messageId = id) →
    (ses.updated = false ∧ ∃ m, ses.message = some m ∧ m.id = id) ∨ Absent s ses id

/-- The session with a delivery in hand whose message was found. -/
structure Hand (ses : Session) (d : WebhookDelivery) : Prop where
  message : ∃ m, ses.message = some m ∧ m.id = d.messageId
  updated : ses.updated = false ↔ ∀ o ∈ ses.objs, o.loaded.messageId = d.messageId
  held : ses.updated = false → ∀ m ∈ ses.held, m.id = d.messageId

/-- What the session has done to the write lock, by program point. -/
def LockPc (s : Sys) : Pc → Prop
  | .idle => True
  | .next ses _ => LockInv s ses
  | .ready ses o _ _ => Hand ses o.loaded
  | .posting ses o _ _ => Hand ses o.loaded

/-- Once the delivery in hand is handled, the session is between two deliveries. -/
theorem Hand.push {s : Sys} {ses : Session} {d : WebhookDelivery} (h : Hand ses d)
    (d' : WebhookDelivery) : LockInv s (ses.push ⟨d, d'⟩) := by
  -- The delivery in hand joins the objects
  have hobjs : ∀ o ∈ (ses.push ⟨d, d'⟩).objs, o ∈ ses.objs ∨ o.loaded = d := fun o ho => by
    rcases List.mem_append.mp ho with ho | ho
    · exact .inl ho
    · exact .inr (by rw [List.mem_singleton.mp ho])
  refine ⟨fun hnil => ?_, fun hup => ?_, fun id _ hall => ?_⟩
  · simp [Session.push] at hnil
  · have hall := h.updated.mp hup
    have hmid : ∀ o ∈ (ses.push ⟨d, d'⟩).objs, o.loaded.messageId = d.messageId := fun o ho => by
      rcases hobjs o ho with ho | ho
      · exact hall o ho
      · rw [ho]
    intro o ho
    exact ⟨fun m hm => (h.held hup m hm).trans (hmid o ho).symm,
      fun o' ho' => (hmid o' ho').trans (hmid o ho).symm⟩
  · have hid : d.messageId = id := hall ⟨d, d'⟩ (by simp [Session.push])
    refine .inl ⟨h.updated.mpr fun o ho => ?_, hid ▸ h.message⟩
    rw [hid]
    exact hall o (by simp [Session.push, ho])

/-- What a lookup of the session may reach is held by it. -/
theorem mem_held_of_reachable {ses : Session} {collected : List String} {m : Message}
    (h : m ∈ ses.reachable collected) : m ∈ ses.held := by
  rcases List.mem_append.mp h with h | h
  · exact List.mem_append_left _ h
  · exact List.mem_append_right _ (List.mem_of_mem_filter h)

/-- The loop variable keeps its message alive. -/
theorem message_reachable {ses : Session} {collected : List String} {m : Message}
    (h : ses.message = some m) : m ∈ ses.reachable collected :=
  List.mem_append_left _ (by simp [h])

/-- After a lookup the session holds its result and what it could reach before. -/
theorem held_hold {ses : Session} {collected : List String} {message : Option Message} :
    (ses.hold collected message).held = message.toList ++ ses.reachable collected := rfl

/-- A flush of handled objects issues an `UPDATE`. -/
theorem autoflush_updated {ses : Session} (now : Time) (hne : ses.objs ≠ [])
    (hdirty : ∀ o ∈ ses.objs, o.Dirty) : (ses.autoflush now).updated = true := by
  obtain ⟨o, ho⟩ := List.exists_mem_of_ne_nil _ hne
  simp only [Session.autoflush, Bool.or_eq_true, decide_eq_true_eq]
  exact .inr ⟨o, ho, hdirty o ho⟩

theorem autoflush_nil {ses : Session} (now : Time) (h : ses.objs = []) :
    (ses.autoflush now).objs = [] ∧ (ses.autoflush now).updated = ses.updated := by
  simp [Session.autoflush, h]

/-- **The lookup found the message**: what it means for the write lock. -/
theorem LockInv.hand {s : Sys} {ses ses' : Session} {collected : List String} {now : Time}
    {d : WebhookDelivery} {m : Message} (h : LockInv s ses) (hdirty : ∀ o ∈ ses.objs, o.Dirty)
    (hget : getMessage s.db ses collected now d.messageId = some (ses', some m)) :
    Hand ses' d := by
  rcases getMessage_eq_some hget with ⟨m', hm', hid, heq, rfl⟩ | ⟨hnot, -, -, hdb, rfl⟩
  · -- found in the identity map, without a query
    have hheld := mem_held_of_reachable hm'
    have hne : ses.objs ≠ [] := fun hnil => by
      rw [(h.fresh hnil).2] at hheld
      cases hheld
    refine ⟨⟨m', rfl, hid⟩, ⟨fun hup o ho => ?_, fun hall => ?_⟩, fun hup x hx => ?_⟩
    · exact ((h.same hup o ho).1 m' hheld).symm.trans hid
    · rcases h.locked d.messageId hne hall with ⟨hup, -⟩ | habsent
      · exact hup
      · exact absurd hid (habsent.session m' hheld)
    · obtain ⟨o, ho⟩ := List.exists_mem_of_ne_nil _ hne
      have hx' : x ∈ ses.held := by
        rw [held_hold] at hx
        rcases List.mem_append.mp hx with hx | hx
        · obtain rfl : x = m' := by simpa using hx
          exact hheld
        · exact mem_held_of_reachable hx
      exact ((h.same hup o ho).1 x hx').trans
        (((h.same hup o ho).1 m' hheld).symm.trans hid)
  -- found in the database, after a flush of the objects
  · obtain ⟨hm, hid⟩ := Store.message?_eq_some.mp hdb.symm
    by_cases hnil : ses.objs = []
    · -- the first lookup of a batch has nothing to flush
      obtain ⟨hobjs, hup⟩ := autoflush_nil now hnil
      obtain ⟨hfresh, hheld⟩ := h.fresh hnil
      refine ⟨⟨m, rfl, hid⟩, ⟨fun _ o ho => ?_, fun _ => hup.trans hfresh⟩, fun _ x hx => ?_⟩
      · rw [show ((ses.autoflush now).hold collected (some m)).objs = [] from hobjs] at ho
        cases ho
      · rw [held_hold] at hx
        rcases List.mem_append.mp hx with hx | hx
        · obtain rfl : x = m := by simpa using hx
          exact hid
        · have hx' : x ∈ ses.held := mem_held_of_reachable hx
          rw [hheld] at hx'
          cases hx'
    · have hup : ((ses.autoflush now).hold collected (some m)).updated = true :=
        autoflush_updated now hnil hdirty
      refine ⟨⟨m, rfl, hid⟩, ⟨fun hfalse => ?_, fun hall => ?_⟩, fun hfalse => ?_⟩
      · rw [hup] at hfalse
        cases hfalse
      · -- with one message throughout, the lookup would have found it in the session
        have hall' : ∀ o ∈ ses.objs, o.loaded.messageId = d.messageId := fun o ho => by
          have hmem : o.loaded ∈ (ses.autoflush now).objs.map Tracked.loaded := by
            rw [map_loaded_autoflush]
            exact List.mem_map_of_mem ho
          obtain ⟨o', ho', heq⟩ := List.mem_map.mp hmem
          rw [← heq]
          exact hall o' ho'
        rcases h.locked d.messageId hnil hall' with ⟨-, m', hm', hid'⟩ | habsent
        · exact absurd hid' (hnot m' (message_reachable hm'))
        · exact absurd hid (habsent.database m hm)
      · rw [hup] at hfalse
        cases hfalse

/-- **The lookup found no message**: the delivery is cancelled, and no later delivery of
    the batch finds the message either. -/
theorem LockInv.push_none {s : Sys} {ses ses' : Session} {collected : List String} {now : Time}
    {d d' : WebhookDelivery} (h : LockInv s ses) (hsettled : s.Settled d.messageId)
    (hdirty : ∀ o ∈ ses.objs, o.Dirty)
    (hget : getMessage s.db ses collected now d.messageId = some (ses', none)) :
    LockInv s (ses'.push ⟨d, d'⟩) := by
  rcases getMessage_eq_some hget with ⟨m, -, -, heq, -⟩ | ⟨hnot, -, -, hdb, rfl⟩
  · cases heq
  have hnone : ∀ m ∈ s.db.messages, m.id ≠ d.messageId := fun m hm hid => by
    rw [Store.message?_eq_some.mpr ⟨hm, hid⟩] at hdb
    cases hdb
  have hheld : ∀ m ∈ (((ses.autoflush now).hold collected none).push ⟨d, d'⟩).held,
      m.id ≠ d.messageId ∧ m ∈ ses.held := fun m hm => by
    have hm' : m ∈ ses.reachable collected := hm
    exact ⟨hnot m hm', mem_held_of_reachable hm'⟩
  refine ⟨fun hnil => ?_, fun hup => ?_, fun id _ hall => ?_⟩
  · simp [Session.push] at hnil
  -- before a flush the session was empty
  · by_cases hnil : ses.objs = []
    · have hobjs : (((ses.autoflush now).hold collected none).push ⟨d, d'⟩).objs = [⟨d, d'⟩] := by
        show (ses.autoflush now).objs ++ [⟨d, d'⟩] = [⟨d, d'⟩]
        rw [(autoflush_nil now hnil).1]
        rfl
      rw [hobjs]
      intro o ho
      refine ⟨fun m hm => ?_, fun o' ho' => ?_⟩
      · have hm' := (hheld m hm).2
        rw [(h.fresh hnil).2] at hm'
        cases hm'
      · rw [List.mem_singleton.mp ho, List.mem_singleton.mp ho']
    · rw [show (((ses.autoflush now).hold collected none).push ⟨d, d'⟩).updated = true from
        autoflush_updated now hnil hdirty] at hup
      cases hup
  · obtain rfl : d.messageId = id := hall ⟨d, d'⟩ (by simp [Session.push])
    exact .inr ⟨hsettled, hnone, fun m hm => (hheld m hm).1⟩

/-- What is absent stays absent. -/
theorem Absent.step {lib : Lib} {cfg : Settings} {s t : Sys} {a : Action} {ses : Session}
    {id : String} (h : Absent s ses id) (hi : Inv cfg s) (hfresh : Fresh s a)
    (htrans : SmsRelay.Trans lib cfg s a t) : Absent t ses id :=
  ⟨h.settled.step hfresh htrans, h.settled.stays_gone hi htrans h.database, h.session⟩

theorem LockPc.step {lib : Lib} {cfg : Settings} {s t : Sys} {a : Action} {pc : Pc}
    (h : LockPc s pc) (hi : Inv cfg s) (hfresh : Fresh s a)
    (htrans : SmsRelay.Trans lib cfg s a t) : LockPc t pc := by
  cases pc with
  | next ses todo =>
    have h' : LockInv s ses := h
    show LockInv t ses
    exact ⟨h'.fresh, h'.same, fun id hne hall =>
      (h'.locked id hne hall).imp_right fun habsent => habsent.step hi hfresh htrans⟩
  | idle | ready | posting => exact h

/-- The loop's own steps, on the state they are taken in. -/
theorem LockPc.trans {lib : Lib} {s : Sys} {a : Act} {db : Store} {pc : Pc}
    (h : LockPc s s.fanout) (hi : FanInv s) (htrans : Trans lib s.env s.db s.fanout a db pc) :
    LockPc s pc := by
  -- every handled object is dirty, so that a flush issues an `UPDATE`
  have hdirty : ∀ o ∈ s.fanout.handled, o.Dirty := fun o ho => by
    refine (hi.handled o ho).dirty (hi.standing o.loaded ?_).2.1
    cases hpc : s.fanout <;> rw [hpc] at ho
    · cases ho
    all_goals exact List.mem_append_left _ (List.mem_map_of_mem ho)
  have hbatch := hi.standing
  generalize s.fanout = pc₀ at h htrans hdirty hbatch
  cases htrans with
  | selectNone | stale | commit | dbError => trivial
  | select =>
    exact ⟨fun _ => ⟨rfl, rfl⟩, fun _ o ho => absurd ho List.not_mem_nil,
      fun _ hne => absurd rfl hne⟩
  | post => exact h
  | posted =>
    unfold afterPost
    split
    · trivial
    · next c _ =>
      have hpush : LockInv s _ := Hand.push h c.delivery
      exact ⟨hpush.fresh, hpush.same, fun id hne hall =>
        (hpush.locked id hne hall).imp_right fun habsent =>
          ⟨habsent.settled, habsent.database, habsent.session⟩⟩
  | @get ses ses' d todo collected now message hget =>
    have hsettled : s.Settled d.messageId := (hbatch d (by simp [Pc.batch])).1.message
    cases message with
    | none =>
      exact LockInv.push_none h hsettled hdirty hget
    | some m =>
      have hhand := LockInv.hand h hdirty hget
      rcases handle_cases lib s.env ses' d (some m) todo with
        ⟨hidle, -⟩ | ⟨d', -, -, hnext⟩ | ⟨m', request, -, hready⟩
      · rw [hidle]
        trivial
      · rw [hnext]
        exact hhand.push d'
      · rw [hready]
        exact hhand

/-- **What the session has done to the write lock is kept track of by every step.** -/
theorem lockPc_step {lib : Lib} {cfg : Settings} {s t : Sys} {a : Action}
    (h : LockPc s s.fanout) (hi : FanInv s) (hinv : Inv cfg s)
    (hstep : SmsRelay.Step lib cfg s a t) : LockPc t t.fanout := by
  obtain ⟨hfresh, htrans⟩ := SmsRelay.trans_of_step hstep
  have hlater := fun {pc} (hpc : LockPc s pc) => LockPc.step hpc hinv hfresh htrans
  cases htrans with
  | fanout hfan => exact hlater (LockPc.trans h hi hfan)
  | crash => trivial
  | send | status | prune | sendMessage | inbound | configure => exact hlater h

theorem lockPc_reachable {lib : Lib} {cfg : Settings} {env : Env} {t : Sys} {tr : List Action}
    (hrun : SmsRelay.Run lib cfg (Sys.init env) tr t) : LockPc t t.fanout := by
  have hinit : LockPc (Sys.init env) (Sys.init env).fanout := trivial
  exact hrun.traceInvariant (P := fun _ s => LockPc s s.fanout) hinit
    fun _ _ _ _ hrun h hstep =>
      lockPc_step h (fanInv_reachable hrun) (inv_reachable hrun) hstep

end FanoutLoop

/-- **The write lock at a `POST`.**  Whenever the fan-out loop awaits `client.post`, its
    session has issued no uncommitted `UPDATE` exactly when every delivery handled before
    in the batch belongs to the same message. -/
theorem write_lock_iff {lib : Lib} {cfg : Settings} {env : Env} {t : Sys} {tr : List Action}
    (hrun : Run lib cfg (Sys.init env) tr t) {ses : FanoutLoop.Session}
    {o : Tracked WebhookDelivery} {request : Webhooks.Request} {todo : List WebhookDelivery}
    (hpc : t.fanout = .posting ses o request todo) :
    ses.updated = false ↔ ∀ o' ∈ ses.objs, o'.loaded.messageId = o.loaded.messageId := by
  have h := FanoutLoop.lockPc_reachable hrun
  rw [hpc] at h
  exact FanoutLoop.Hand.updated h

namespace Sample

/-- The first delivery of a batch is posted. -/
def firstPost : List Action :=
  receive 0 "e1" "m1" "d1" 1 ++ receive 1 "e2" "m2" "d2" 2 ++
    [.fanout (.select 3 ["d1", "d2"])] ++ postDelivery "d1" 3

/-- The second delivery of one message is posted. -/
def samePost : List Action :=
  deliver 0 "e1" ++ store 0 "m1" ["d1", "d2"] 1 ++ [.fanout (.select 3 ["d1", "d2"])] ++
    postDelivery "d1" 3 ++ [webhookReply "d1" 200 4] ++ postDelivery "d2" 4

/-- The second delivery of the batch, for another message, is posted. -/
def secondPost : List Action :=
  firstPost ++ [webhookReply "d1" 200 4] ++ postDelivery "d2" 4

/-- While the loop awaits a `POST`: whether its session has an open `UPDATE`, the
    message posted and the messages of the deliveries handled before it. -/
def atPost (s : Sys) : Option (Bool × String × List String) :=
  match s.fanout with
  | .posting ses o _ _ =>
    some (ses.updated, o.loaded.messageId, ses.objs.map fun o => o.loaded.messageId)
  | _ => none

theorem posting_of_atPost {s : Sys} {updated : Bool} {id : String} {ids : List String}
    (h : atPost s = some (updated, id, ids)) : ∃ ses o request todo,
      s.fanout = .posting ses o request todo ∧ ses.updated = updated ∧
        o.loaded.messageId = id ∧ (ses.objs.map fun o => o.loaded.messageId) = ids := by
  unfold atPost at h
  split at h
  · next ses o request todo hpc =>
    simp only [Option.some.injEq, Prod.mk.injEq] at h
    exact ⟨ses, o, request, todo, hpc, h⟩
  · cases h

end Sample

/-- The `POST` of the second delivery of one message. -/
theorem write_lock_iff_same : ∃ t ses o request todo,
    Run Sample.lib Sample.cfg (Sys.init Sample.bothSubscribed) Sample.samePost t ∧
    t.fanout = .posting ses o request todo ∧
    (ses.objs.map fun o' => o'.loaded.messageId) = ["m1"] ∧ ses.updated = false ∧
    (ses.updated = false ↔ ∀ o' ∈ ses.objs, o'.loaded.messageId = o.loaded.messageId) := by
  obtain ⟨t, hrun, hpost⟩ : ∃ t,
      Run Sample.lib Sample.cfg (Sys.init Sample.bothSubscribed) Sample.samePost t ∧
      Sample.atPost t = some (false, "m1", ["m1"]) := run_of_exec_map (by decide +kernel)
  obtain ⟨ses, o, request, todo, hpc, hup, -, hids⟩ := Sample.posting_of_atPost hpost
  exact ⟨t, ses, o, request, todo, hrun, hpc, hids, hup, write_lock_iff hrun hpc⟩

/-- The `POST` of a second message goes out with the `UPDATE` of the first delivery open. -/
theorem not_unlocked_second : ¬ ∀ t ses o request todo,
    Run Sample.lib Sample.cfg (Sys.init Sample.subscribed) Sample.secondPost t →
    t.fanout = .posting ses o request todo → ses.updated = false := by
  intro hunlocked
  obtain ⟨t, hrun, hpost⟩ : ∃ t,
      Run Sample.lib Sample.cfg (Sys.init Sample.subscribed) Sample.secondPost t ∧
      Sample.atPost t = some (true, "m2", ["m1"]) := run_of_exec_map (by decide +kernel)
  obtain ⟨ses, o, request, todo, hpc, hup, -, -⟩ := Sample.posting_of_atPost hpost
  rw [hunlocked t ses o request todo hrun hpc] at hup
  cases hup

end SmsRelay
