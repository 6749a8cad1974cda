import SmsRelay.Spec.Batch

/-!
# Deliveries do not disturb one another

A subscriber that has acknowledged a delivery is not to be sent it again, and no delivery
is to be attempted more than six times.  Both hold as long as no batch in which something
was posted is discarded.

## Key results

- `PostLedger`: a pending row has counted every `POST` made for it, and none of them was
  acknowledged
- `deliveries_isolated`: isolation within a batch, and what follows for runs
-/

namespace SmsRelay

open UnitOfWork Transition Webhooks

/-! ## What a trace says about a delivery -/

/-- A `POST` of the delivery. -/
def Action.delivers (id : String) : Action → Bool
  | .fanout (.post id') => id' = id
  | _ => false

/-- The subscriber answers the delivery with a status below 300. -/
def Action.acks (id : String) : Action → Bool
  | .fanout (.posted id' (.ok response) _) => id' = id && response.statusCode < 300
  | _ => false

/-- How many `POST`s of the delivery were made. -/
def deliveryPosts (id : String) (tr : List Action) : Nat := tr.countP (Action.delivers id)

@[simp] theorem deliveryPosts_nil (id : String) : deliveryPosts id [] = 0 := rfl

@[simp] theorem deliveryPosts_snoc (id : String) (tr : List Action) (a : Action) :
    deliveryPosts id (tr ++ [a]) = deliveryPosts id tr + if a.delivers id then 1 else 0 := by
  simp [deliveryPosts, List.countP_append, List.countP_cons]

/-- The row has counted every `POST` of the delivery, and none was acknowledged. -/
structure Tally (tr : List Action) (d : WebhookDelivery) : Prop where
  posts : deliveryPosts d.id tr = d.attempts
  unacked : ∀ b ∈ tr, b.acks d.id = false

/-- Only the id and the counter matter. -/
theorem Tally.congr {tr : List Action} {d d' : WebhookDelivery} (h : Tally tr d)
    (hid : d'.id = d.id) (hatt : d'.attempts = d.attempts) : Tally tr d' :=
  ⟨by rw [hid, hatt]; exact h.posts, by rw [hid]; exact h.unacked⟩

/-- A label that is not about the delivery leaves its tally alone. -/
theorem Tally.snoc {tr : List Action} {a : Action} {d : WebhookDelivery} (h : Tally tr d)
    (hpost : a.delivers d.id = false) (hack : a.acks d.id = false) : Tally (tr ++ [a]) d := by
  refine ⟨by simp [hpost, h.posts], fun b hb => ?_⟩
  rcases List.mem_append.mp hb with hb | hb
  · exact h.unacked b hb
  · rw [List.mem_singleton.mp hb]
    exact hack

/-! ## Discarded batches -/

/-- Something was posted in the running batch, and its outcome is not committed yet. -/
def FanoutLoop.Pc.Posted : FanoutLoop.Pc → Prop
  | .idle => False
  | .next ses _ => ∃ o ∈ ses.objs, o.current.attempts ≠ o.loaded.attempts
  | .ready ses _ _ _ => ∃ o ∈ ses.objs, o.current.attempts ≠ o.loaded.attempts
  | .posting _ _ _ _ => True

instance (pc : FanoutLoop.Pc) : Decidable pc.Posted := by
  cases pc <;> unfold FanoutLoop.Pc.Posted <;> infer_instance

/-- The delivery whose message is looked up next. -/
def FanoutLoop.Pc.upcoming : FanoutLoop.Pc → Option WebhookDelivery
  | .next _ (d :: _) => some d
  | _ => none

/-- The step does not throw away the outcome of a `POST`: what the `POST` comes to can be
    written down, and, in a batch in which something was posted, the process does not crash,
    no database operation fails, `deliver` does not raise before the next `POST`, and the
    rows that were handled are still there. -/
def KeepsPosts (s : Sys) : Action → Prop
  | .crash => ¬ s.fanout.Posted
  | .fanout .dbError => ¬ s.fanout.Posted
  | .fanout (.get _ _) => s.fanout.Posted →
      (∀ d ∈ s.fanout.upcoming, ¬ RaisesEarly s.env d) ∧
        Matched s.fanout.handled s.db.deliveries
  | .fanout (.posted _ reply _) => Storable reply
  | _ => True

/-! ## The ledger -/

/-- The rows of the running batch, as far as the session has got with them. -/
def FanoutLoop.Pc.rows : FanoutLoop.Pc → List WebhookDelivery
  | .idle => []
  | .next ses todo => ses.objs.map Tracked.current ++ todo
  | .ready ses o _ todo => ses.objs.map Tracked.current ++ o.loaded :: todo
  | .posting ses o _ todo => ses.objs.map Tracked.current ++ o.current :: todo

/-- The session of the running batch. -/
def FanoutLoop.Pc.session : FanoutLoop.Pc → Option FanoutLoop.Session
  | .idle => none
  | .next ses _ => some ses
  | .ready ses _ _ _ => some ses
  | .posting ses _ _ _ => some ses

/-- The running batch has nothing to write that sqlite3 refuses. -/
def FanoutLoop.Pc.Bindable (pc : FanoutLoop.Pc) : Prop := ∀ ses ∈ pc.session, ses.bindable = true

/-- The `POST`s of a trace against the rows of the state it leads to. -/
structure PostLedger (tr : List Action) (s : Sys) : Prop where
  bound : ∀ id, deliveryPosts id tr ≤ maxDeliveryAttempts
  undrawn : ∀ id, id ∉ s.used → deliveryPosts id tr = 0 ∧ ∀ b ∈ tr, b.acks id = false
  calls : ∀ call, ∀ d ∈ (s.inbounds call).deliveries, Tally tr d
  stored : ∀ d ∈ s.db.deliveries, d.status = .pending →
    (∀ b ∈ s.fanout.batch, b.id ≠ d.id) → Tally tr d
  working : ∀ d ∈ s.fanout.rows, d.status = .pending → Tally tr d
  unposted : ∀ o ∈ s.fanout.handled, o.current.attempts = o.loaded.attempts → Tally tr o.loaded
  bindable : s.fanout.Bindable

/-- Where the loop stands when it posts a delivery. -/
theorem delivers_inv {lib : Lib} {cfg : Settings} {s t : Sys} {a : Action} {id : String}
    (h : Trans lib cfg s a t) (ha : a.delivers id = true) : ∃ ses o request todo,
      s.fanout = .ready ses o request todo ∧ t.fanout = .posting ses o request todo ∧
        o.loaded.id = id := by
  cases h with
  | @fanout b db pc h =>
    generalize hpc : s.fanout = pc₀ at h
    cases h with
    | post => exact ⟨_, _, _, _, rfl, rfl, by simpa [Action.delivers] using ha⟩
    | _ => cases ha
  | _ => cases ha

/-- Where the loop stands when a delivery is acknowledged. -/
theorem acks_inv {lib : Lib} {cfg : Settings} {s t : Sys} {a : Action} {id : String}
    (h : Trans lib cfg s a t) (ha : a.acks id = true) : ∃ ses o request todo,
      s.fanout = .posting ses o request todo ∧ o.loaded.id = id := by
  cases h with
  | @fanout b db pc h =>
    generalize hpc : s.fanout = pc₀ at h
    cases h with
    | @posted ses o request todo reply now =>
      -- an exception is no acknowledgement
      cases reply with
      | error e => cases ha
      | ok response =>
        simp only [Action.acks, Bool.and_eq_true, decide_eq_true_eq] at ha
        exact ⟨_, _, _, _, rfl, ha.1⟩
    | _ => cases ha
  | _ => cases ha

/-- A step is about no delivery but the one in hand. -/
theorem quiet_of_trans {lib : Lib} {cfg : Settings} {s t : Sys} {a : Action} {id : String}
    (h : Trans lib cfg s a t) (hid : ∀ o ∈ s.fanout.current, o.loaded.id ≠ id) :
    a.delivers id = false ∧ a.acks id = false := by
  constructor
  · by_contra hpost
    obtain ⟨ses, o, request, todo, hpc, -, rfl⟩ := delivers_inv h (Bool.not_eq_false _ ▸ hpost)
    exact hid o (by rw [hpc]; rfl) rfl
  · by_contra hack
    obtain ⟨ses, o, request, todo, hpc, rfl⟩ := acks_inv h (Bool.not_eq_false _ ▸ hack)
    exact hid o (by rw [hpc]; rfl) rfl

/-- The row in hand belongs to the batch. -/
theorem FanoutLoop.Pc.current_mem_batch {pc : FanoutLoop.Pc} {o : Tracked WebhookDelivery}
    (ho : o ∈ pc.current) : o.loaded ∈ pc.batch := by
  cases pc with
  | idle | next => cases ho
  | ready ses o' request todo | posting ses o' request todo =>
    cases ho
    simp [FanoutLoop.Pc.batch]

section
variable {lib : Lib} {cfg : Settings} {s t : Sys} {a : Action} {tr : List Action}

/-- The parts of the ledger that are the same for every step. -/
theorem PostLedger.step_of (hl : PostLedger tr s) (hi : FanInv s) (hfresh : Fresh s a)
    (h : Trans lib cfg s a t)
    (hstored : ∀ d ∈ t.db.deliveries, d.status = .pending →
      (∀ b ∈ t.fanout.batch, b.id ≠ d.id) → Tally (tr ++ [a]) d)
    (hworking : ∀ d ∈ t.fanout.rows, d.status = .pending → Tally (tr ++ [a]) d)
    (hunposted : ∀ o ∈ t.fanout.handled, o.current.attempts = o.loaded.attempts →
      Tally (tr ++ [a]) o.loaded) (hbind : t.fanout.Bindable) :
    PostLedger (tr ++ [a]) t := by
  -- the delivery in hand is an old one, and nobody else has it
  have hcurrent : ∀ {id}, ¬ s.DeliverySettled id → ∀ o ∈ s.fanout.current, o.loaded.id ≠ id := by
    rintro id hnot o ho rfl
    exact hnot (hi.standing _ (FanoutLoop.Pc.current_mem_batch ho)).1.settled
  have hundrawn : ∀ id, id ∉ s.used →
      deliveryPosts id (tr ++ [a]) = 0 ∧ ∀ b ∈ tr ++ [a], b.acks id = false := fun id hid => by
    obtain ⟨hposts, hacks⟩ := hl.undrawn id hid
    obtain ⟨hpost, hack⟩ := quiet_of_trans h (hcurrent fun hs => hid hs.1)
    refine ⟨by simp [hpost, hposts], fun b hb => ?_⟩
    rcases List.mem_append.mp hb with hb | hb
    · exact hacks b hb
    · rw [List.mem_singleton.mp hb]
      exact hack
  refine
    { bound := fun id => ?_
      undrawn := fun id hid => hundrawn id fun hold => hid ?_
      calls := fun call d hd => ?_
      stored := hstored
      working := hworking
      unposted := hunposted
      bindable := hbind }
  · rw [deliveryPosts_snoc]
    split
    · next hpost =>
      -- the row still has an attempt left, and has counted the earlier ones
      obtain ⟨ses, o, request, todo, hpc, -, rfl⟩ := delivers_inv h hpost
      have hbatch : o.loaded ∈ s.fanout.batch := by simp [hpc, FanoutLoop.Pc.batch]
      obtain ⟨-, hs, hlt⟩ := hi.standing o.loaded hbatch
      rw [(hl.working o.loaded (by simp [hpc, FanoutLoop.Pc.rows]) hs).posts]
      exact hlt
    · exact hl.bound id
  · rw [used_step h]
    exact List.mem_append_right _ hold
  · rcases callDeliveries_step h hd with hold | ⟨-, hnew, -, hatt⟩
    · obtain ⟨hpost, hack⟩ := quiet_of_trans h (hcurrent fun hs => hs.2 call d hold rfl)
      exact (hl.calls call d hold).snoc hpost hack
    · obtain ⟨hposts, hacks⟩ := hundrawn d.id (hfresh.2 d.id hnew)
      exact ⟨by rw [hposts, hatt], hacks⟩

/-- The committed rows outside the running batch. -/
theorem PostLedger.stored_step (hl : PostLedger tr s) (hi : FanInv s) (h : Trans lib cfg s a t)
    (ha : ∀ now, a ≠ .fanout (.commit now)) {d : WebhookDelivery} (hd : d ∈ t.db.deliveries)
    (hs : d.status = .pending) (hout : ∀ b ∈ s.fanout.batch, b.id ≠ d.id) :
    Tally (tr ++ [a]) d := by
  obtain ⟨hpost, hack⟩ := quiet_of_trans h fun o ho =>
    hout o.loaded (FanoutLoop.Pc.current_mem_batch ho)
  cases deliveries_origin hi h hd with
  | kept hold _ => exact (hl.stored d hold hs hout).snoc hpost hack
  | committed hcommit => exact absurd hcommit (ha _)
  | inserted _ hcall _ => exact (hl.calls _ d hcall).snoc hpost hack

/-- If nothing was posted in the batch, its rows are still what the trace says. -/
theorem PostLedger.rewind (hl : PostLedger tr s) (hi : FanInv s) (hnot : ¬ s.fanout.Posted) :
    ∀ d ∈ s.fanout.batch, Tally tr d := by
  intro d hd
  have hs := (hi.standing d hd).2.1
  have hhandled : (∀ o ∈ s.fanout.handled, o.current.attempts = o.loaded.attempts) →
      d ∈ s.fanout.handled.map Tracked.loaded → Tally tr d := fun heq hmem => by
    obtain ⟨o, ho, rfl⟩ := List.mem_map.mp hmem
    exact hl.unposted o ho (heq o ho)
  have hworking := hl.working d
  -- A handled row has its tally by `unposted`, a row to come by `working`
  cases hpc : s.fanout with
  | idle =>
    rw [hpc] at hd
    cases hd
  | next ses todo | ready ses o request todo =>
    rw [hpc] at hd hnot hhandled hworking
    rcases List.mem_append.mp hd with hd | hd
    · refine hhandled (fun o ho => ?_) hd
      by_contra hne
      exact hnot ⟨o, ho, hne⟩
    · exact hworking (List.mem_append_right _ hd) hs
  | posting => exact absurd (by rw [hpc]; trivial) hnot

/-- A batch in which nothing was posted may be discarded. -/
theorem PostLedger.discard (hl : PostLedger tr s) (hi : FanInv s) (hfresh : Fresh s a)
    (h : Trans lib cfg s a t) (ha : ∀ now, a ≠ .fanout (.commit now))
    (hquiet : ∀ id, a.delivers id = false ∧ a.acks id = false) (hdb : t.db = s.db)
    (hidle : t.fanout = .idle) (hnot : ¬ s.fanout.Posted) : PostLedger (tr ++ [a]) t := by
  refine hl.step_of hi hfresh h (fun d hd hs _ => ?_) (fun d hd => ?_) (fun o ho => ?_)
    fun ses hses => ?_
  -- a row of the batch is back where it was loaded
  · by_cases hbatch : ∃ b ∈ s.fanout.batch, b.id = d.id
    · obtain ⟨b, hb, hid⟩ := hbatch
      obtain rfl := (hi.standing b hb).1.row d (hdb ▸ hd) hid.symm
      exact (hl.rewind hi hnot d hb).snoc (hquiet _).1 (hquiet _).2
    · exact hl.stored_step hi h ha hd hs fun b hb hid => hbatch ⟨b, hb, hid⟩
  · rw [hidle] at hd
    cases hd
  · rw [hidle] at ho
    cases ho
  · rw [hidle] at hses
    cases hses

/-- The other parties make no `POST` and leave the running batch alone. -/
theorem PostLedger.other (hl : PostLedger tr s) (hi : FanInv s) (hfresh : Fresh s a)
    (h : Trans lib cfg s a t) (ha : ∀ b, a ≠ .fanout b) (hpc : t.fanout = s.fanout) :
    PostLedger (tr ++ [a]) t := by
  have hquiet : ∀ id, a.delivers id = false ∧ a.acks id = false := fun id => by
    cases a with
    | fanout b => exact absurd rfl (ha b)
    | _ => exact ⟨rfl, rfl⟩
  refine hl.step_of hi hfresh h (fun d hd hs hout => ?_) (fun d hd hs => ?_) (fun o ho heq => ?_)
    (by rw [hpc]; exact hl.bindable)
  · exact hl.stored_step hi h (fun now => ha _) hd hs (by rwa [hpc] at hout)
  · rw [hpc] at hd
    exact (hl.working d hd hs).snoc (hquiet _).1 (hquiet _).2
  · rw [hpc] at ho
    exact (hl.unposted o ho heq).snoc (hquiet _).1 (hquiet _).2

/-- An attempt that was not acknowledged keeps id and counter. -/
theorem unacknowledged_tally (now : Time) (d : WebhookDelivery) (error : PyStr) :
    (unacknowledged now d error).delivery.id = d.id ∧
      (unacknowledged now d error).delivery.attempts = d.attempts := by
  unfold unacknowledged retryOrFail
  dsimp only
  split <;> exact ⟨rfl, rfl⟩

/-- The end of an attempt keeps id and counter; an acknowledged delivery is not pending. -/
theorem conclude_tally {d : WebhookDelivery} {c : Concluded} {reply : HttpReply} {now : Time}
    (h : conclude d reply now = .ok c) :
    c.delivery.id = d.id ∧ c.delivery.attempts = d.attempts ∧
      ((Action.fanout (.posted d.id reply now)).acks d.id = true →
        c.delivery.status ≠ .pending) := by
  -- Three ways out: a status below 300, any other answer, and `httpx.HTTPError`
  unfold conclude at h
  split at h
  · next response =>
    split at h
    · obtain rfl := Except.ok.inj h
      exact ⟨rfl, rfl, fun _ hpending => by cases hpending⟩
    · next hge =>
      split at h
      · cases h
      · obtain rfl := Except.ok.inj h
        refine ⟨(unacknowledged_tally ..).1, (unacknowledged_tally ..).2, fun hack => ?_⟩
        simp [Action.acks, hge] at hack
  · obtain rfl := Except.ok.inj h
    exact ⟨(unacknowledged_tally ..).1, (unacknowledged_tally ..).2, fun hack => by cases hack⟩
  · cases h

/-- A selection loads due rows, and every due row has its tally. -/
theorem PostLedger.select (hl : PostLedger tr s) (hi : FanInv s) {now : Time}
    {batch : List WebhookDelivery} {ids : List String} (hpc : s.fanout = .idle)
    (hbatch : FanoutLoop.IsBatch s.db now batch) (hfresh : Fresh s (.fanout (.select now ids)))
    (h : Trans lib cfg s (.fanout (.select now ids)) { s with fanout := .next .fresh batch }) :
    PostLedger (tr ++ [.fanout (.select now ids)]) { s with fanout := .next .fresh batch } := by
  have hnone : ∀ d : WebhookDelivery, ∀ b ∈ s.fanout.batch, b.id ≠ d.id := fun d b hb => by
    rw [hpc] at hb
    exact absurd hb List.not_mem_nil
  refine hl.step_of hi hfresh h (fun d hd hs _ => ?_) (fun d hd hs => ?_)
    (fun o ho => absurd ho List.not_mem_nil) fun ses hses => ?_
  · exact hl.stored_step hi h (fun _ => by simp) hd hs (hnone d)
  · have hmem : d ∈ batch := hd
    exact (hl.stored d (List.mem_of_mem_filter (hbatch.mem_due d hmem)) hs (hnone d)).snoc rfl rfl
  · obtain rfl : FanoutLoop.Session.fresh = ses := by simpa [FanoutLoop.Pc.session] using hses
    rfl

/-- The objects of a session before and after a lookup count alike. -/
theorem PostLedger.objs_get (hl : PostLedger tr s) {ses ses' : FanoutLoop.Session}
    {d : WebhookDelivery} {todo : List WebhookDelivery} {collected : List String} {now : Time}
    {message : Option Message} (hpc : s.fanout = .next ses (d :: todo))
    (hget : FanoutLoop.getMessage s.db ses collected now d.messageId = some (ses', message)) :
    (∀ r ∈ ses'.objs.map Tracked.current, r.status = .pending → Tally tr r) ∧
      ∀ o ∈ ses'.objs, o.current.attempts = o.loaded.attempts → Tally tr o.loaded := by
  -- At most the stamps of the objects change
  obtain ⟨-, hobjs⟩ := FanoutLoop.getMessage_objs hget
  constructor
  · intro r hr hs
    obtain ⟨o, ho, rfl⟩ := List.mem_map.mp hr
    obtain ⟨o', ho', -, hcur⟩ := hobjs o ho
    have hmem : o'.current ∈ s.fanout.rows := by
      rw [hpc]
      exact List.mem_append_left _ (List.mem_map_of_mem ho')
    have hs' : o'.current.status = .pending := by
      rw [hcur] at hs
      exact hs
    exact (hl.working o'.current hmem hs').congr (by rw [hcur]) (by rw [hcur])
  · intro o ho heq
    obtain ⟨o', ho', hloaded, hcur⟩ := hobjs o ho
    rw [hloaded] at heq ⊢
    exact hl.unposted o' (by rw [hpc]; exact ho') (by rw [hcur] at heq; exact heq)

/-- The lookup of the next message, with what follows up to the `POST`. -/
theorem PostLedger.get (hl : PostLedger tr s) (hi : FanInv s) {ses ses' : FanoutLoop.Session}
    {d : WebhookDelivery} {todo : List WebhookDelivery} {collected : List String} {now : Time}
    {message : Option Message} (hpc : s.fanout = .next ses (d :: todo))
    (hget : FanoutLoop.getMessage s.db ses collected now d.messageId = some (ses', message))
    {pc : FanoutLoop.Pc} (hne : pc ≠ .idle)
    (heq : FanoutLoop.handle lib s.env ses' d message todo = pc)
    (hfresh : Fresh s (.fanout (.get collected now)))
    (h : Trans lib cfg s (.fanout (.get collected now)) { s with fanout := pc }) :
    PostLedger (tr ++ [.fanout (.get collected now)]) { s with fanout := pc } := by
  obtain ⟨hcurrent, hloaded⟩ := hl.objs_get hpc hget
  have hsnoc : ∀ {r}, Tally tr r → Tally (tr ++ [.fanout (.get collected now)]) r :=
    fun htally => htally.snoc rfl rfl
  have hrest : ∀ r ∈ d :: todo, Tally tr r := fun r hr =>
    hl.working r (by rw [hpc]; exact List.mem_append_right _ hr)
      (hi.standing r (by rw [hpc]; exact List.mem_append_right _ hr)).2.1
  have hbatch : ∀ {l}, l = ses'.objs.map Tracked.loaded ++ d :: todo → l = s.fanout.batch :=
    fun hl => by rw [hl, (FanoutLoop.getMessage_objs hget).1, hpc]; rfl
  have hbind : ses'.bindable = true :=
    (FanoutLoop.getMessage_bindable hget).trans (hl.bindable ses (by rw [hpc]; rfl))
  -- No `POST` yet: the delivery is cancelled, or it is in hand with its tally
  rcases FanoutLoop.handle_cases lib s.env ses' d message todo with
    ⟨hidle, -⟩ | ⟨d', hout, hs', hnext⟩ | ⟨m, request, -, hready⟩
  · exact absurd (heq.symm.trans hidle) hne
  · obtain rfl := heq.symm.trans hnext
    have hsame := hbatch (l := ((ses'.push ⟨d, d'⟩).objs.map Tracked.loaded ++ todo))
      (by simp [FanoutLoop.Session.push])
    refine hl.step_of hi hfresh h (fun r hr hs hnot => ?_) (fun r hr hs => hsnoc ?_)
      (fun o ho hatt => hsnoc ?_) fun ses₁ hses => ?_
    · exact hl.stored_step hi h (fun _ => by simp) hr hs (hsame ▸ hnot)
    · simp only [FanoutLoop.Pc.rows, FanoutLoop.Session.push, List.map_append, List.map_cons,
        List.map_nil, List.append_assoc, List.mem_append, List.mem_singleton] at hr
      rcases hr with hr | rfl | hr
      · exact hcurrent r hr hs
      · rw [hs'] at hs
        cases hs
      · exact hrest r (List.mem_cons_of_mem _ hr)
    · rcases List.mem_append.mp ho with ho | ho
      · exact hloaded o ho hatt
      · obtain rfl := List.mem_singleton.mp ho
        exact hrest d List.mem_cons_self
    · obtain rfl := Option.some.inj hses
      exact hbind
  · obtain rfl := heq.symm.trans hready
    have hsame := hbatch (l := ses'.objs.map Tracked.loaded ++ d :: todo) rfl
    refine hl.step_of hi hfresh h (fun r hr hs hnot => ?_) (fun r hr hs => hsnoc ?_)
      (fun o ho hatt => hsnoc (hloaded o ho hatt)) fun ses₁ hses => ?_
    · exact hl.stored_step hi h (fun _ => by simp) hr hs (hsame ▸ hnot)
    · rcases List.mem_append.mp hr with hr | hr
      · exact hcurrent r hr hs
      · exact hrest r hr
    · obtain rfl := Option.some.inj hses
      exact hbind

/-- The rows of a session with a delivery in hand, apart from that delivery. -/
theorem FanInv.others_ne (hi : FanInv s) {ses : FanoutLoop.Session}
    {o : Tracked WebhookDelivery} {todo : List WebhookDelivery}
    (hbatch : s.fanout.batch = ses.objs.map Tracked.loaded ++ o.loaded :: todo)
    (hhandled : s.fanout.handled = ses.objs) :
    (∀ o' ∈ ses.objs, o'.current.id = o'.loaded.id ∧ o'.loaded.id ≠ o.loaded.id) ∧
      ∀ r ∈ todo, r.id ≠ o.loaded.id := by
  have hnd := hi.nodup
  rw [hbatch] at hnd
  obtain ⟨hobjs, htodo⟩ := ne_of_nodup_batch hnd
  refine ⟨fun o' ho' => ⟨?_, hobjs o'.loaded (List.mem_map_of_mem ho')⟩, htodo⟩
  exact WebhookDelivery.id_eq_of_content (hi.handled o' (by rwa [hhandled])).content

/-- The `POST` is counted in the object before it is made. -/
theorem PostLedger.post (hl : PostLedger tr s) (hi : FanInv s) {ses : FanoutLoop.Session}
    {o : Tracked WebhookDelivery} {request : Request} {todo : List WebhookDelivery}
    (hpc : s.fanout = .ready ses o request todo) (hfresh : Fresh s (.fanout (.post o.loaded.id)))
    (h : Trans lib cfg s (.fanout (.post o.loaded.id))
      { s with fanout := .posting ses o request todo }) :
    PostLedger (tr ++ [.fanout (.post o.loaded.id)])
      { s with fanout := .posting ses o request todo } := by
  have hbatch : s.fanout.batch = ses.objs.map Tracked.loaded ++ o.loaded :: todo := by
    rw [hpc]
    rfl
  obtain ⟨hobjs, htodo⟩ := hi.others_ne hbatch (by rw [hpc]; rfl)
  have hsnoc : ∀ {r}, r.id ≠ o.loaded.id → Tally tr r →
      Tally (tr ++ [.fanout (.post o.loaded.id)]) r :=
    fun hne htally => htally.snoc (by simp [Action.delivers, hne.symm]) rfl
  -- The trace grows by one `POST`, and so does the counter of the row in hand
  refine hl.step_of hi hfresh h (fun r hr hs hnot => ?_) (fun r hr hs => ?_)
    (fun o' ho' hatt => ?_) fun ses₁ hses => ?_
  · exact hl.stored_step hi h (fun _ => by simp) hr hs (hbatch ▸ hnot)
  · have hrow : ∀ r, r ∈ ses.objs.map Tracked.current ++ o.loaded :: todo →
        r.status = .pending → Tally tr r := fun r hr => hl.working r (by rw [hpc]; exact hr)
    rcases List.mem_append.mp hr with hr | hr
    · obtain ⟨o', ho', rfl⟩ := List.mem_map.mp hr
      exact hsnoc ((hobjs o' ho').1 ▸ (hobjs o' ho').2) (hrow _ (List.mem_append_left _ hr) hs)
    · rcases List.mem_cons.mp hr with rfl | hr
      · have hpending := (hi.standing o.loaded (by rw [hbatch]; simp)).2.1
        have htally := hrow o.loaded (List.mem_append_right _ List.mem_cons_self) hpending
        rw [hi.current o (by rw [hpc]; rfl)]
        refine ⟨?_, fun b hb => ?_⟩
        · simp [Action.delivers, WebhookDelivery.attempted, htally.posts]
        · rcases List.mem_append.mp hb with hb | hb
          · exact htally.unacked b hb
          · rw [List.mem_singleton.mp hb]
            rfl
      · exact hsnoc (htodo r hr)
          (hrow r (List.mem_append_right _ (List.mem_cons_of_mem _ hr)) hs)
  · exact hsnoc (hobjs o' ho').2 (hl.unposted o' (by rw [hpc]; exact ho') hatt)
  · exact hl.bindable ses₁ (by rw [hpc]; exact hses)

/-- A delivery that was answered leaves the loop acknowledged, or with its tally. -/
theorem PostLedger.posted (hl : PostLedger tr s) (hi : FanInv s) {ses : FanoutLoop.Session}
    {o : Tracked WebhookDelivery} {request : Request} {todo : List WebhookDelivery}
    {reply : HttpReply} {now : Time} {c : Concluded}
    (hpc : s.fanout = .posting ses o request todo)
    (hconclude : conclude o.current reply now = .ok c)
    (hfresh : Fresh s (.fanout (.posted o.loaded.id reply now)))
    (h : Trans lib cfg s (.fanout (.posted o.loaded.id reply now))
      { s with fanout := .next (ses.push ⟨o.loaded, c.delivery⟩) todo }) :
    PostLedger (tr ++ [.fanout (.posted o.loaded.id reply now)])
      { s with fanout := .next (ses.push ⟨o.loaded, c.delivery⟩) todo } := by
  have hbatch : s.fanout.batch = ses.objs.map Tracked.loaded ++ o.loaded :: todo := by
    rw [hpc]
    rfl
  obtain ⟨hobjs, htodo⟩ := hi.others_ne hbatch (by rw [hpc]; rfl)
  have hcurrent : o.current = o.loaded.attempted := hi.current o (by rw [hpc]; rfl)
  obtain ⟨hid, hatt, hacked⟩ := conclude_tally hconclude
  have hid' : o.current.id = o.loaded.id := by rw [hcurrent]; rfl
  have hsnoc : ∀ {r}, r.id ≠ o.loaded.id → Tally tr r →
      Tally (tr ++ [.fanout (.posted o.loaded.id reply now)]) r := fun hne htally => by
    refine htally.snoc rfl ?_
    cases reply with
    | error e => rfl
    | ok response => simp [Action.acks, hne.symm]
  have hrow : ∀ r, r ∈ ses.objs.map Tracked.current ++ o.current :: todo →
      r.status = .pending → Tally tr r := fun r hr => hl.working r (by rw [hpc]; exact hr)
  -- Only the delivery in hand is answered
  refine hl.step_of hi hfresh h (fun r hr hs hnot => ?_) (fun r hr hs => ?_)
    (fun o' ho' heq => ?_) fun ses₁ hses => ?_
  · refine hl.stored_step hi h (fun _ => by simp) hr hs fun b hb => hnot b ?_
    rw [hbatch] at hb
    simpa [FanoutLoop.Pc.batch, FanoutLoop.Session.push] using hb
  · simp only [FanoutLoop.Pc.rows, FanoutLoop.Session.push, List.map_append, List.map_cons,
      List.map_nil, List.append_assoc, List.mem_append, List.mem_singleton] at hr
    rcases hr with hr | rfl | hr
    · obtain ⟨o', ho', rfl⟩ := List.mem_map.mp hr
      exact hsnoc ((hobjs o' ho').1 ▸ (hobjs o' ho').2) (hrow _ (List.mem_append_left _ hr) hs)
    · -- the row in hand: if it is still pending, this was no acknowledgement
      have hpending : o.current.status = .pending := by
        rw [hcurrent]
        exact (hi.standing o.loaded (by rw [hbatch]; simp)).2.1
      have htally := (hrow o.current (by simp) hpending).congr hid hatt
      refine htally.snoc rfl ?_
      rw [hid]
      refine Bool.eq_false_iff.mpr fun hack => hacked ?_ hs
      rwa [hid'] at hack ⊢
    · exact hsnoc (htodo r hr)
        (hrow r (List.mem_append_right _ (List.mem_cons_of_mem _ hr)) hs)
  · rcases List.mem_append.mp ho' with ho' | ho'
    · exact hsnoc (hobjs o' ho').2 (hl.unposted o' (by rw [hpc]; exact ho') heq)
    · obtain rfl := List.mem_singleton.mp ho'
      have heq' : c.delivery.attempts = o.loaded.attempts := heq
      rw [hatt, hcurrent] at heq'
      simp [WebhookDelivery.attempted] at heq'
  · obtain rfl := Option.some.inj hses
    exact hl.bindable ses (by rw [hpc]; rfl)

/-- The commit writes the rows of the session. -/
theorem PostLedger.commit (hl : PostLedger tr s) (hi : FanInv s) {ses : FanoutLoop.Session}
    {now : Time} {db : Store} (hpc : s.fanout = .next ses [])
    (hfresh : Fresh s (.fanout (.commit now)))
    (h : Trans lib cfg s (.fanout (.commit now)) { s with db := db, fanout := .idle }) :
    PostLedger (tr ++ [.fanout (.commit now)]) { s with db := db, fanout := .idle } := by
  refine hl.step_of hi hfresh h (fun d hd hs _ => ?_) (fun r hr => absurd hr List.not_mem_nil)
    (fun o ho => absurd ho List.not_mem_nil) fun _ hses => by cases hses
  refine Tally.snoc ?_ rfl rfl
  -- A committed row is an object of the session, with the object's tally
  cases deliveries_origin hi h hd with
  | kept hold hne =>
    refine hl.stored d hold hs fun b hb hid => ?_
    rw [hpc, FanoutLoop.Pc.batch, List.append_nil] at hb
    obtain ⟨o, ho, rfl⟩ := List.mem_map.mp hb
    exact hne now rfl o (by rw [hpc]; exact ho) hid.symm
  | @committed now' ses' o _ hpc' ho _ heq =>
    have hmem : o.current ∈ s.fanout.rows := by
      rw [hpc', FanoutLoop.Pc.rows, List.append_nil]
      exact List.mem_map_of_mem ho
    have hs' : o.current.status = .pending := by
      rw [heq] at hs
      exact hs
    exact (hl.working o.current hmem hs').congr (by rw [heq]) (by rw [heq])
  | inserted ha => cases ha

/-- **The ledger is kept by every step that throws no `POST` away.** -/
theorem postLedger_step (hl : PostLedger tr s) (hi : FanInv s) (hkeeps : KeepsPosts s a)
    (hstep : Step lib cfg s a t) : PostLedger (tr ++ [a]) t := by
  obtain ⟨hfresh, h⟩ := trans_of_step hstep
  have htrans := h
  cases h with
  | @fanout b db pc hfan =>
    generalize hpc : s.fanout = pc₀ at hfan
    cases hfan with
    | selectNone =>
      exact hl.discard hi hfresh htrans (fun _ => by simp) (fun _ => ⟨rfl, rfl⟩) rfl rfl
        (by rw [hpc]; exact id)
    | select hbatch => exact hl.select hi hpc hbatch hfresh htrans
    | @stale ses d todo collected now hget =>
      refine hl.discard hi hfresh htrans (fun _ => by simp) (fun _ => ⟨rfl, rfl⟩) rfl rfl
        fun hposted => ?_
      -- the rows of the session are there, so the flush was not stale
      obtain ⟨-, hmatched⟩ := hkeeps hposted
      rw [hpc, FanoutLoop.Pc.handled] at hmatched
      unfold FanoutLoop.getMessage at hget
      split at hget
      · cases hget
      · rw [if_pos ⟨hl.bindable ses (by rw [hpc]; rfl), hmatched⟩] at hget
        cases hget
    | @get ses ses' d todo collected now message hget =>
      by_cases hidle : FanoutLoop.handle lib s.env ses' d message todo = .idle
      · rw [hidle] at htrans ⊢
        refine hl.discard hi hfresh htrans (fun _ => by simp) (fun _ => ⟨rfl, rfl⟩) rfl rfl
          fun hposted => ?_
        -- `deliver` gets to its `POST`, so the batch goes on
        obtain ⟨hok, -⟩ := hkeeps hposted
        rcases FanoutLoop.handle_cases lib s.env ses' d message todo with
          ⟨-, hraises⟩ | ⟨d', -, -, hnext⟩ | ⟨m, request, -, hready⟩
        · exact absurd hraises (hok d (by rw [hpc]; rfl))
        · rw [hidle] at hnext
          cases hnext
        · rw [hidle] at hready
          cases hready
      · exact hl.get hi hpc hget hidle rfl hfresh htrans
    | post => exact hl.post hi hpc hfresh htrans
    | @posted ses o request todo reply now =>
      -- what the `POST` came to joins the session, which stays one to commit
      obtain ⟨c, hconclude, hbind⟩ := (conclude_storable_iff o.current now).mp hkeeps
      have hafter : FanoutLoop.afterPost ses o reply now todo =
          .next (ses.push ⟨o.loaded, c.delivery⟩) todo := by
        simp only [FanoutLoop.afterPost, hconclude, FanoutLoop.conclude_of_bindable hbind]
      rw [hafter] at htrans ⊢
      exact hl.posted hi hpc hconclude hfresh htrans
    | commit => exact hl.commit hi hpc hfresh htrans
    | dbError =>
      exact hl.discard hi hfresh htrans (fun _ => by simp) (fun _ => ⟨rfl, rfl⟩) rfl rfl hkeeps
  | crash =>
    exact hl.discard hi hfresh htrans (fun _ => by simp) (fun _ => ⟨rfl, rfl⟩) rfl rfl hkeeps
  | send | status | prune | sendMessage | inbound | configure =>
    exact hl.other hi hfresh htrans (fun _ => by simp) rfl

end

theorem postLedger_init (env : Env) : PostLedger [] (Sys.init env) where
  bound _ := by simp
  undrawn _ _ := ⟨rfl, fun b hb => absurd hb List.not_mem_nil⟩
  calls _ _ hd := absurd hd List.not_mem_nil
  stored _ hd := absurd hd List.not_mem_nil
  working _ hd := absurd hd List.not_mem_nil
  unposted _ ho := absurd ho List.not_mem_nil
  bindable _ hses := by cases hses

/-! ## Isolation -/

section
variable {lib : Lib} {cfg : Settings} {env env₀ : Env} {tr : List Action} {t : Sys}

theorem postLedger_reachable
    (hrun : Transition.Run (Guarded KeepsPosts (Step lib cfg)) (Sys.init env) tr t) :
    PostLedger tr t :=
  hrun.traceInvariant (P := fun tr s => PostLedger tr s) (postLedger_init env)
    fun _ _ _ _ hrun hl hstep =>
      postLedger_step hl (fanInv_reachable hrun.unguard) hstep.1 hstep.2

/-- **Deliveries do not disturb one another.**  The deliveries of a batch get what each
    would get alone exactly when none of them spoils the batch or all of them do.  And in a
    run that throws no `POST` away, no delivery is posted more than six times, and none is
    posted after it was acknowledged. -/
theorem deliveries_isolated {answers : Answers} {db : Store} {now : Time}
    {batch : List WebhookDelivery} (hbatch : FanoutLoop.IsBatch db now batch)
    (hrun : Transition.Run (Guarded KeepsPosts (Step lib cfg)) (Sys.init env₀) tr t) :
    (FanoutLoop.Isolated lib env answers db batch ↔
      (∀ d ∈ batch, ¬ Spoils env answers d) ∨ ∀ d ∈ batch, Spoils env answers d) ∧
    ∀ id, deliveryPosts id tr ≤ maxDeliveryAttempts ∧
      tr.Pairwise fun b a => b.acks id = true → a.delivers id ≠ true := by
  refine ⟨FanoutLoop.isolated_iff hbatch, fun id => ⟨(postLedger_reachable hrun).bound id, ?_⟩⟩
  refine hrun.pairwise_never (P := fun b => b.acks id = true) (Q := fun a => a.delivers id = true)
    fun tr s a u hrun hstep hpost b hb hack => ?_
  have hi := fanInv_reachable hrun.unguard
  obtain ⟨ses, o, request, todo, hpc, -, rfl⟩ := delivers_inv (trans_of_step hstep.2).2 hpost
  -- the row in hand is pending, so the trace has no acknowledgement for it
  have hs := (hi.standing o.loaded (by simp [hpc, FanoutLoop.Pc.batch])).2.1
  have htally := (postLedger_reachable hrun).working o.loaded
    (by simp [hpc, FanoutLoop.Pc.rows]) hs
  rw [htally.unacked b hb] at hack
  cases hack

end

instance (s : Sys) (a : Action) : Decidable (KeepsPosts s a) := by
  unfold KeepsPosts
  split <;> infer_instance

namespace Sample

/-- One message for two subscribers is stored. -/
def receivedForBoth : List Action := deliver 0 "e1" ++ store 0 "m1" ["d1", "d2"] 1

/-- Of a batch of two deliveries the first is acknowledged and the second fails, which is
    acknowledged the second time. -/
def attemptedTwice : List Action :=
  receivedForBoth ++ [.fanout (.select 1 ["d1", "d2"])] ++
    postDelivery "d1" 1 ++ [webhookReply "d1" 200 1] ++
    postDelivery "d2" 1 ++ [webhookReply "d2" 500 1, .fanout (.commit 1)] ++
    [.fanout (.select (seconds 60) ["d2"])] ++ postDelivery "d2" (seconds 60) ++
    [webhookReply "d2" 200 (seconds 60), .fanout (.commit (seconds 60))]

/-- The URL of the second subscriber is none. -/
def badUrl : Env :=
  ⟨[], .ok [⟨"app", "http://app", "", ["message.received"]⟩,
    ⟨"bad", "http://bad:port", "", ["message.received"]⟩]⟩

/-- A batch acknowledged by the first subscriber, then `client.post` raises
    `httpx.InvalidURL` for the second; the next batch posts to the first again. -/
def reposted : List Action :=
  receivedForBoth ++
    [.fanout (.select 1 ["d1", "d2"])] ++ postDelivery "d1" 1 ++ [webhookReply "d1" 200 1] ++
    postDelivery "d2" 1 ++ [.fanout (.posted "d2" (.error (.other "Invalid port: 'port'")) 1)] ++
    [.fanout (.select 2 ["d1", "d2"])] ++ postDelivery "d1" 2

/-- The first delivery is acknowledged, the other is answered with a 500. -/
def oneFails : Answers := fun id =>
  (.ok ⟨if id = "d1" then 200 else 500, "", .error .jsonDecodeError⟩, 2)

end Sample

/-- Both parts at work: a batch of two deliveries, and a run that posts one of them twice. -/
theorem deliveries_isolated_retried : ∃ s t,
    Run Sample.lib Sample.cfg (Sys.init Sample.bothSubscribed) Sample.receivedForBoth s ∧
    s.db.deliveries.map WebhookDelivery.id = ["d1", "d2"] ∧
    Run Sample.lib Sample.cfg (Sys.init Sample.bothSubscribed) Sample.attemptedTwice t ∧
    deliveryPosts "d1" Sample.attemptedTwice = 1 ∧ deliveryPosts "d2" Sample.attemptedTwice = 2 ∧
    (FanoutLoop.Isolated Sample.lib Sample.bothSubscribed Sample.oneFails s.db s.db.deliveries ↔
      (∀ d ∈ s.db.deliveries, ¬ Spoils Sample.bothSubscribed Sample.oneFails d) ∨
        ∀ d ∈ s.db.deliveries, Spoils Sample.bothSubscribed Sample.oneFails d) ∧
    ∀ id, deliveryPosts id Sample.attemptedTwice ≤ maxDeliveryAttempts ∧
      Sample.attemptedTwice.Pairwise fun b a => b.acks id = true → a.delivers id ≠ true := by
  obtain ⟨s, hrun, hs⟩ : ∃ s, Run Sample.lib Sample.cfg (Sys.init Sample.bothSubscribed)
      Sample.receivedForBoth s ∧ (s.db.deliveries.map WebhookDelivery.id,
        decide (FanoutLoop.IsBatch s.db 1 s.db.deliveries)) = (["d1", "d2"], true) :=
    run_of_exec_map (f := fun s : Sys => (s.db.deliveries.map WebhookDelivery.id,
      decide (FanoutLoop.IsBatch s.db 1 s.db.deliveries))) (by decide +kernel)
  obtain ⟨t, ht⟩ : ∃ t, exec (fun s a => if KeepsPosts s a then
      step Sample.lib Sample.cfg s a else none) (Sys.init Sample.bothSubscribed)
      Sample.attemptedTwice = some t := Option.isSome_iff_exists.mp (by decide +kernel)
  have hguard := guarded_of_exec ht
  obtain ⟨hids, hbatch⟩ := Prod.mk.inj hs
  exact ⟨s, t, hrun, hids, hguard.unguard, by decide +kernel, by decide +kernel,
    deliveries_isolated (of_decide_eq_true hbatch) hguard⟩

/-- A subscriber whose URL is malformed makes the loop post an acknowledged delivery
    of another subscriber again. -/
theorem not_isolated_bad_url : ¬ ∀ t,
    Run Sample.lib Sample.cfg (Sys.init Sample.badUrl) Sample.reposted t →
    Sample.reposted.Pairwise fun b a => b.acks "d1" = true → a.delivers "d1" ≠ true := by
  intro hnever
  obtain ⟨t, ht⟩ : ∃ t, exec (step Sample.lib Sample.cfg) (Sys.init Sample.badUrl)
      Sample.reposted = some t := Option.isSome_iff_exists.mp (by decide +kernel)
  have hpairwise := hnever t (run_of_exec ht)
  revert hpairwise
  decide +kernel

end SmsRelay
