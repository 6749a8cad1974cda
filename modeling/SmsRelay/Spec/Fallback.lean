import SmsRelay.ForStd.Once
import SmsRelay.Spec.Recovery

/-!
# How a publication ends

The send loop calls `publish` for a claimed message with an ntfy topic, and falls back to a
text message on the three kinds of exceptions that its `except` clause names.  Any other
exception, such as `httpx.InvalidURL`, ends the iteration with the row still in `sending`
and still for ntfy.  So does a receipt whose id has a surrogate: the commit that is to store
it raises.  The row is queued again when it is stuck, and published again.

## Key results

- `afterPublish_cases`: the three ways a publication ends
- `handling_run`: where the iteration stands after an answer that does not escape
- `publish_resolved_iff`: which answers the iteration settles, and that a message is then
  published at most once
-/

namespace SmsRelay

open UnitOfWork Transition

/-! ## The ends of `publish` -/

/-- ntfy acknowledges: a 2xx response that is a `message` receipt with an id. -/
def Acks (reply : HttpReply) : Prop :=
  ∃ response items receipt, reply = .ok response ∧ response.isSuccess = true ∧
    response.json = .ok (.obj items) ∧ Json.get items "event" = .str "message" ∧
      Json.get items "id" = .str receipt

/-- An exception ends the iteration: one that is neither `httpx.HTTPError` nor `ValueError`
    nor `TimeoutError`, from building or sending the request or from reading the response, or
    the one of the commit that is to store an id with a surrogate. -/
def escapes : HttpReply → Bool
  | .error (.other _) => true
  | .error _ => false
  | .ok response => response.isSuccess &&
    match response.json with
    | .ok receipt =>
      match receiptId receipt with
      | .ok id => id.encode.isNone
      | .error _ => false
    | .error (.other _) => true
    | .error _ => false

/-- What counts as a receipt. -/
theorem receiptId_eq_ok {receipt : Json PyStr} {id : PyStr} : receiptId receipt = .ok id ↔
    ∃ items, receipt = .obj items ∧ Json.get items "event" = .str "message" ∧
      Json.get items "id" = .str id := by
  unfold receiptId
  constructor
  · intro h
    split at h
    · next items =>
      split at h
      · next id' hevent hid =>
        obtain rfl := Except.ok.inj h
        exact ⟨items, rfl, hevent, hid⟩
      · cases h
    · cases h
  · intro h
    obtain ⟨items, rfl, hevent, hid⟩ := h
    simp only [hevent, hid]

/-- What does not is a `ValueError`. -/
theorem receiptId_eq_error {receipt : Json PyStr} {e : PyError} (h : receiptId receipt = .error e) :
    e.fallsBack = true := by
  unfold receiptId at h
  split at h
  · split at h
    · cases h
    · obtain rfl := Except.error.inj h
      rfl
  · obtain rfl := Except.error.inj h
    rfl

/-- `publish` returns when ntfy acknowledges, and only then. -/
theorem acks_iff {reply : HttpReply} : Acks reply ↔ ∃ receipt, publish reply = .ok receipt := by
  constructor
  · intro h
    obtain ⟨response, items, receipt, rfl, hsuccess, hjson, hevent, hid⟩ := h
    refine ⟨receipt, ?_⟩
    simp only [publish, hsuccess, hjson]
    exact receiptId_eq_ok.mpr ⟨items, rfl, hevent, hid⟩
  · intro h
    obtain ⟨receipt, h⟩ := h
    unfold publish at h
    split at h
    · cases h
    · next response =>
      split at h
      · cases h
      · next hsuccess =>
        split at h
        · next body hjson =>
          obtain ⟨items, rfl, hevent, hid⟩ := receiptId_eq_ok.mp h
          exact ⟨response, items, receipt, rfl, by simpa using hsuccess, hjson, hevent, hid⟩
        · cases h

/-- A receipt ends the iteration when its id cannot be stored. -/
theorem publish_eq_ok {reply : HttpReply} {receipt : PyStr} (h : publish reply = .ok receipt) :
    escapes reply = receipt.encode.isNone := by
  obtain ⟨response, items, id, rfl, hsuccess, hjson, hevent, hid⟩ := acks_iff.mpr ⟨receipt, h⟩
  have hreceipt : receiptId (.obj items) = .ok id := receiptId_eq_ok.mpr ⟨items, rfl, hevent, hid⟩
  simp only [publish, hsuccess, hjson, hreceipt] at h
  obtain rfl := Except.ok.inj h
  simp [escapes, hsuccess, hjson, hreceipt]

/-- What it raises is caught, unless it escapes. -/
theorem publish_eq_error {reply : HttpReply} {e : PyError} (h : publish reply = .error e) :
    e.fallsBack = !escapes reply := by
  unfold publish at h
  split at h
  · next e' =>
    obtain rfl := Except.error.inj h
    cases e' <;> rfl
  · next response =>
    split at h
    · next hfailed =>
      obtain rfl := Except.error.inj h
      simp only [Bool.not_eq_true'] at hfailed
      simp [PyError.fallsBack, escapes, hfailed]
    · next hsuccess =>
      simp only [Bool.not_eq_true', Bool.not_eq_false] at hsuccess
      split at h
      · next receipt hjson =>
        simp [receiptId_eq_error h, escapes, hjson, h]
      · next e' hjson =>
        obtain rfl := Except.error.inj h
        cases e' <;> simp [PyError.fallsBack, LoadsError.toPyError, escapes, hsuccess, hjson]

/-- **The three ways a publication ends.** -/
theorem publish_cases (reply : HttpReply) :
    (Acks reply ∧ escapes reply = false ∧ ∃ receipt, publish reply = .ok (.text receipt)) ∨
      (¬ Acks reply ∧ escapes reply = false ∧
        ∃ e, publish reply = .error e ∧ e.fallsBack = true) ∨
      (escapes reply = true ∧ ((Acks reply ∧ ∃ receipt, publish reply = .ok (.lone receipt)) ∨
        ¬ Acks reply ∧ ∃ e, publish reply = .error e ∧ e.fallsBack = false)) := by
  cases h : publish reply with
  | ok receipt =>
    have hacks : Acks reply := acks_iff.mpr ⟨receipt, h⟩
    have hesc := publish_eq_ok h
    cases receipt with
    | text receipt => exact .inl ⟨hacks, hesc, receipt, rfl⟩
    | lone receipt => exact .inr (.inr ⟨hesc, .inl ⟨hacks, receipt, rfl⟩⟩)
  | error e =>
    have hnot : ¬ Acks reply := by
      intro hacks
      obtain ⟨receipt, hok⟩ := acks_iff.mp hacks
      cases h.symm.trans hok
    have hfalls := publish_eq_error h
    cases hesc : escapes reply with
    | false => exact .inr (.inl ⟨hnot, rfl, e, rfl, by simp [hfalls, hesc]⟩)
    | true => exact .inr (.inr ⟨rfl, .inr ⟨hnot, e, rfl, by simp [hfalls, hesc]⟩⟩)

/-- Where the loop goes from there. -/
theorem afterPublish_cases (m : Message) (reply : HttpReply) (now : Time) :
    (Acks reply ∧ escapes reply = false ∧ ∃ receipt, SendLoop.afterPublish m reply now =
        .acknowledged ((Tracked.load m).assign (SendLoop.markPublished receipt now))) ∨
      (¬ Acks reply ∧ escapes reply = false ∧ SendLoop.afterPublish m reply now =
        .fellBack ((Tracked.load m).assign SendLoop.fallBack)) ∨
      (escapes reply = true ∧ ((Acks reply ∧ SendLoop.afterPublish m reply now = .unbindable m) ∨
        ¬ Acks reply ∧ SendLoop.afterPublish m reply now = .idle)) := by
  unfold SendLoop.afterPublish
  rcases publish_cases reply with ⟨hacks, hesc, receipt, hok⟩ | ⟨hacks, hesc, e, herror, hfalls⟩ |
    ⟨hesc, ⟨hacks, receipt, hok⟩ | ⟨hacks, e, herror, hfalls⟩⟩
  · rw [hok]
    exact .inl ⟨hacks, hesc, receipt, rfl⟩
  · rw [herror]
    exact .inr (.inl ⟨hacks, hesc, if_pos hfalls⟩)
  · rw [hok]
    exact .inr (.inr ⟨hesc, .inl ⟨hacks, rfl⟩⟩)
  · rw [herror]
    exact .inr (.inr ⟨hesc, .inr ⟨hacks, if_neg (by simp [hfalls])⟩⟩)

/-! ## The iteration -/

/-- The process lives, and the commit of what a publication came to does not fail. -/
def Settles (s : Sys) : Action → Prop
  | .crash => False
  | .send .dbError => ∀ o, s.send ≠ .acknowledged o ∧ s.send ≠ .fellBack o
  | _ => True

/-- In addition, the send loop does not start another iteration. -/
def WithinIteration (s : Sys) (a : Action) : Prop :=
  Settles s a ∧ ∀ now stamp, a ≠ .send (.requeueSelect now stamp)

/-- The steps of an iteration of the send loop, and of everything around it. -/
abbrev IterationStep (lib : Lib) (cfg : Settings) : Sys → Action → Sys → Prop :=
  Guarded WithinIteration (Step lib cfg)

/-- The send loop has committed a row of the message with the property, and after that the
    trace goes on with `after`. -/
def CommitsRow (lib : Lib) (cfg : Settings) (s : Sys) (tr : List Action) (id : String)
    (P : Message → Prop) (after : List Action) : Prop :=
  ∃ tr₁ stamp u v, tr = tr₁ ++ .send (.commit stamp) :: after ∧ Run lib cfg s tr₁ u ∧
    Step lib cfg u (.send (.commit stamp)) v ∧ ∃ r ∈ v.db.messages, r.id = id ∧ P r

/-- The message was committed as published, if ntfy has acknowledged it; if not, the fallback
    was committed, then the provider was called, and the message is not published. -/
structure Settlement (lib : Lib) (cfg : Settings) (s : Sys) (tr : List Action) (t : Sys)
    (id : String) (reply : HttpReply) : Prop where
  published : Acks reply →
    ∃ after, CommitsRow lib cfg s tr id (fun r => r.status = .published) after
  fellBack : ¬ Acks reply →
    (∃ after, CommitsRow lib cfg s tr id (fun r => r.transport = .smsFallback) after ∧
      Action.send (.providerSend id) ∈ after) ∧
    ∀ r ∈ t.db.messages, r.id = id → r.status ≠ .published

/-- The iteration that hears this answer about the message settles it. -/
structure Resolves (lib : Lib) (cfg : Settings) (s : Sys) (m : Message) (reply : HttpReply)
    (now : Time) : Prop where
  /-- The iteration comes to an end. -/
  ends : ∃ tr t, Transition.Run (IterationStep lib cfg) s
    (.send (.publishReply m.id reply now) :: tr) t ∧ t.send = .idle
  /-- However it ends, the message is settled. -/
  settles : ∀ tr t, Transition.Run (IterationStep lib cfg) s
    (.send (.publishReply m.id reply now) :: tr) t → t.send = .idle →
      Settlement lib cfg s (.send (.publishReply m.id reply now) :: tr) t m.id reply

/-- The loop has called the provider, or has nothing more to do. -/
def SendLoop.Pc.handedOver : SendLoop.Pc → Bool
  | .sending _ => true
  | .finishing _ => true
  | .unbindable _ => true
  | .idle => true
  | _ => false

/-- Where the iteration stands after an answer that does not escape. -/
inductive Handling (lib : Lib) (cfg : Settings) (s : Sys) (m : Message) (reply : HttpReply)
    (tr : List Action) (u : Sys) : Prop
  | acknowledged (receipt : String) (now : Time) : Acks reply →
      u.send = .acknowledged ((Tracked.load m).assign (SendLoop.markPublished receipt now)) →
      Handling lib cfg s m reply tr u
  | published (after : List Action) : Acks reply → u.send = .idle →
      CommitsRow lib cfg s tr m.id (fun r => r.status = .published) after →
      Handling lib cfg s m reply tr u
  | fellBack : ¬ Acks reply →
      u.send = .fellBack ((Tracked.load m).assign SendLoop.fallBack) →
      Handling lib cfg s m reply tr u
  | limiting (r : Message) (after : List Action) : ¬ Acks reply → u.send = .limiting r →
      r.id = m.id → CommitsRow lib cfg s tr m.id (fun r => r.transport = .smsFallback) after →
      Handling lib cfg s m reply tr u
  | handed (after : List Action) : ¬ Acks reply → u.send.handedOver = true →
      CommitsRow lib cfg s tr m.id (fun r => r.transport = .smsFallback) after →
      Action.send (.providerSend m.id) ∈ after → Handling lib cfg s m reply tr u

section
variable {lib : Lib} {cfg : Settings} {env : Env} {s t u v : Sys} {a : Action}
  {tr after : List Action} {m : Message} {reply : HttpReply} {now : Time} {id : String}
  {P : Message → Prop}

theorem CommitsRow.snoc (h : CommitsRow lib cfg s tr id P after) (a : Action) :
    CommitsRow lib cfg s (tr ++ [a]) id P (after ++ [a]) := by
  obtain ⟨tr₁, stamp, u, v, rfl, hrest⟩ := h
  exact ⟨tr₁, stamp, u, v, by simp, hrest⟩

/-- A step of another party leaves the loop where it stands. -/
theorem Handling.other (h : Handling lib cfg s m reply tr u) (hsame : v.send = u.send)
    (a : Action) : Handling lib cfg s m reply (tr ++ [a]) v := by
  cases h with
  | acknowledged receipt now hacks hpc => exact .acknowledged receipt now hacks (hsame.trans hpc)
  | published after hacks hpc hrow => exact .published _ hacks (hsame.trans hpc) (hrow.snoc a)
  | fellBack hacks hpc => exact .fellBack hacks (hsame.trans hpc)
  | limiting r after hacks hpc hid hrow =>
    exact .limiting r _ hacks (hsame.trans hpc) hid (hrow.snoc a)
  | handed after hacks hpc hrow hmem =>
    exact .handed _ hacks (by rw [hsame]; exact hpc) (hrow.snoc a) (List.mem_append_left _ hmem)

/-- A loop that has called the provider goes on to record the outcome, or stops. -/
theorem SendLoop.Trans.handedOver {db db' : Store} {pc pc' : SendLoop.Pc} {b : SendLoop.Act}
    (h : SendLoop.Trans lib cfg db pc b db' pc') (hpc : pc.handedOver = true)
    (hb : ∀ now stamp, b ≠ .requeueSelect now stamp) : pc'.handedOver = true := by
  cases h with
  | requeueNone => exact absurd rfl (hb _ _)
  | requeueSome => exact absurd rfl (hb _ _)
  | providerReply =>
    unfold SendLoop.afterSend
    split
    · split <;> rfl
    · split <;> rfl
    · rfl
  | finishing | dbError => rfl
  | requeued | claimNone | claimSome | claimed | publish | publishReply | acknowledged | fellBack
    | providerSend => cases hpc

/-- **A step of the iteration itself.** -/
theorem Handling.own (h : Handling lib cfg s m reply tr u) (hi : Inv cfg u)
    (hrun : Run lib cfg s tr u) {b : SendLoop.Act} (hwithin : WithinIteration u (.send b))
    (hstep : Step lib cfg u (.send b) v) : Handling lib cfg s m reply (tr ++ [.send b]) v := by
  have hsend := hi.send
  have hb : ∀ now stamp, b ≠ .requeueSelect now stamp := by
    rintro now stamp rfl
    exact hwithin.2 now stamp rfl
  cases (trans_of_step hstep).2 with
  | @send b db pc h' =>
    cases h with
    | acknowledged receipt now' hacks hpc =>
      rw [hpc] at h' hsend
      cases h' with
      | @acknowledged o stamp db hdb =>
        refine .published [] hacks rfl ⟨tr, stamp, u, _, rfl, hrun, hstep, _,
          saved_mem hsend.1 hdb, ?_, ?_⟩
        · exact SendLoop.saved_id hsend (List.mem_singleton.mpr rfl) stamp
        · exact saved_status stamp _
      | dbError => exact absurd hpc (hwithin.1 _).1
    | published after hacks hpc hrow =>
      rw [hpc] at h'
      cases h' with
      | requeueNone => exact absurd rfl (hb _ _)
      | requeueSome => exact absurd rfl (hb _ _)
      | dbError => exact .published _ hacks rfl (hrow.snoc _)
    | fellBack hacks hpc =>
      rw [hpc] at h' hsend
      cases h' with
      | @fellBack o stamp db hdb =>
        have hid := SendLoop.saved_id hsend (List.mem_singleton.mpr rfl) stamp
        refine .limiting _ [] hacks rfl hid ⟨tr, stamp, u, _, rfl, hrun, hstep, _,
          saved_mem hsend.1 hdb, hid, ?_⟩
        exact saved_transport stamp _
      | dbError => exact absurd hpc (hwithin.1 _).2
    | limiting r after hacks hpc hid hrow =>
      rw [hpc] at h'
      cases h' with
      | providerSend =>
        rw [hid]
        exact .handed _ hacks rfl (hrow.snoc _)
          (List.mem_append_right _ (List.mem_singleton.mpr rfl))
      | dbError hdb => cases hdb
    | handed after hacks hpc hrow hmem =>
      exact .handed _ hacks (h'.handedOver hpc hb) (hrow.snoc _) (List.mem_append_left _ hmem)

/-- The answer itself. -/
theorem handling_reply (hpc : s.send = .publishing m) (hesc : escapes reply = false)
    (hstep : Step lib cfg s (.send (.publishReply m.id reply now)) u) :
    Handling lib cfg s m reply [.send (.publishReply m.id reply now)] u := by
  have hsend : u.send = SendLoop.afterPublish m reply now := by
    cases (trans_of_step hstep).2 with
    | send h =>
      rw [hpc] at h
      cases h with
      | publishReply => rfl
  rcases afterPublish_cases m reply now with ⟨hacks, -, receipt, heq⟩ | ⟨hacks, -, heq⟩ |
    ⟨hesc', -⟩
  · exact .acknowledged receipt now hacks (hsend.trans heq)
  · exact .fellBack hacks (hsend.trans heq)
  · rw [hesc] at hesc'
    cases hesc'

/-- **Where the iteration stands** from the answer on. -/
theorem handling_run (hi : Inv cfg s) (hpc : s.send = .publishing m)
    (hesc : escapes reply = false) (hstep : Step lib cfg s (.send (.publishReply m.id reply now)) u)
    (hrun : Transition.Run (IterationStep lib cfg) u tr v) :
    Handling lib cfg s m reply (.send (.publishReply m.id reply now) :: tr) v := by
  induction hrun with
  | nil => exact handling_reply hpc hesc hstep
  | @snoc tr w a v hrun hlast ih =>
    have hsw : Run lib cfg s (.send (.publishReply m.id reply now) :: tr) w :=
      (Run.single hstep).append hrun.unguard
    by_cases hown : ∃ b, a = .send b
    · obtain ⟨b, rfl⟩ := hown
      exact ih.own (inv_run hi hsw) hsw hlast.1 hlast.2
    · have hcrash : a ≠ .crash := by
        rintro rfl
        exact hlast.1.1
      exact ih.other (send_of_other (trans_of_step hlast.2).2 (fun b hb => hown ⟨b, hb⟩) hcrash) a

/-- What is no longer for ntfy is not published. -/
theorem not_published_after (hi : Inv cfg s) (hrun : Run lib cfg s tr t)
    (hrow : CommitsRow lib cfg s tr id (fun r => r.transport = .smsFallback) after) :
    ∀ r ∈ t.db.messages, r.id = id → r.status ≠ .published := by
  obtain ⟨tr₁, stamp, u, v, rfl, hbefore, hstep, r₀, hr₀, hid₀, hsms⟩ := hrow
  intro r hr hid hs
  -- the run passes through the state of the commit
  rw [List.append_cons] at hrun
  have hafter := run_rest hrun (hbefore.snoc hstep)
  have hiv := inv_run hi (hbefore.append (Run.single hstep))
  have hnot := not_ntfy_evolved (by rw [hsms]; decide)
    (evolved_run hiv hafter hr₀ hr (hid.trans hid₀.symm))
  exact hnot (((inv_run hiv hafter).row r hr).1.published hs).2.1

/-! ### Every iteration ends -/

/-- A move of the loop that starts no iteration and is no failure. -/
theorem iterationStep {b : SendLoop.Act} {db : Store} {pc : SendLoop.Pc} (hb : b ≠ .dbError)
    (hnew : ∀ now stamp, b ≠ .requeueSelect now stamp)
    (h : SendLoop.step lib cfg s.db s.send b = some (db, pc)) :
    IterationStep lib cfg s (.send b) { s with db := db, send := pc } := by
  refine ⟨⟨?_, fun now stamp heq => hnew now stamp (Action.send.inj heq)⟩, step_send h⟩
  cases b with
  | dbError => exact absurd rfl hb
  | _ => trivial

/-- The answer to a publication. -/
theorem reply_step (hpc : s.send = .publishing m) (reply : HttpReply) (now : Time) :
    IterationStep lib cfg s (.send (.publishReply m.id reply now))
      { s with db := s.db, send := SendLoop.afterPublish m reply now } :=
  iterationStep (fun h => by cases h) (fun _ _ h => by cases h)
    (by rw [hpc]; simp [SendLoop.step])

/-- The commit of what cannot be bound raises. -/
theorem raise_step (hpc : s.send = .unbindable m) :
    IterationStep lib cfg s (.send .dbError) { s with db := s.db, send := .idle } := by
  refine ⟨⟨fun o => ?_, fun now stamp heq => by cases heq⟩, step_send ?_⟩
  · rw [hpc]
    exact ⟨nofun, nofun⟩
  · rw [hpc]
    rfl

/-- From the rate limiter on, the iteration can call the provider and hear its answer. -/
theorem exists_handed {r : Message} (hpc : s.send = .limiting r) :
    ∃ tr t, Transition.Run (IterationStep lib cfg) s tr t ∧ t.send = .idle := by
  have hcall : IterationStep lib cfg s (.send (.providerSend r.id))
      { s with db := s.db, send := .sending r } :=
    iterationStep (fun h => by cases h) (fun _ _ h => by cases h) (by rw [hpc]; exact if_pos rfl)
  -- an answer that the `except` clause does not name ends it at once
  obtain ⟨reply, result, hresult, hidle⟩ : ∃ reply result,
      SmsRelay.providerSend cfg.provider reply = some result ∧
        SendLoop.afterSend lib cfg r 0 result = .idle := by
    cases hprov : cfg.provider with
    | androidGateway => exact ⟨.gateway (.error .timeout), _, rfl, rfl⟩
    | dev => exact ⟨.file (.error ""), _, rfl, rfl⟩
  have hanswer : IterationStep lib cfg { s with db := s.db, send := .sending r }
      (.send (.providerReply r.id reply 0)) { s with db := s.db, send := .idle } :=
    iterationStep (fun h => by cases h) (fun _ _ h => by cases h)
      (by simp [SendLoop.step, hresult, hidle])
  exact ⟨_, _, (Run.single hcall).append (Run.single hanswer), rfl⟩

/-- A publication that has come to an end can be settled, or has escaped. -/
theorem exists_end (hi : Inv cfg s) (hpc : s.send = .publishing m) (reply : HttpReply)
    (now : Time) : ∃ tr t, Transition.Run (IterationStep lib cfg) s
      (.send (.publishReply m.id reply now) :: tr) t ∧ t.send = .idle := by
  have hrun := Run.single (@reply_step lib cfg s m hpc reply now)
  have hi₁ := inv_run hi hrun.unguard
  have hsend := hi₁.send
  rcases afterPublish_cases m reply now with
    ⟨-, -, receipt, heq⟩ | ⟨-, -, heq⟩ | ⟨-, ⟨-, heq⟩ | ⟨-, heq⟩⟩
  · -- the commit of the acknowledged publication
    simp only [heq] at hsend hrun
    obtain ⟨db, hdb⟩ := hsend.exists_commit 0
    have hcommit : IterationStep lib cfg _ (.send (.commit 0)) _ :=
      @iterationStep lib cfg
        { s with
          db := s.db
          send := .acknowledged ((Tracked.load m).assign (SendLoop.markPublished receipt now)) }
        (.commit 0) db .idle (fun h => by cases h) (fun _ _ h => by cases h)
        (Option.map_eq_some_iff.mpr ⟨db, hdb, rfl⟩)
    exact ⟨_, _, hrun.append (Run.single hcommit), rfl⟩
  · -- the commit of the fallback; the provider is next
    simp only [heq] at hsend hrun
    obtain ⟨db, hdb⟩ := hsend.exists_commit 0
    generalize hr : ((Tracked.load m).assign SendLoop.fallBack).saved (0 : Time) = r
    have hcommit : IterationStep lib cfg
        { s with db := s.db, send := .fellBack ((Tracked.load m).assign SendLoop.fallBack) }
        (.send (.commit 0)) { s with db := db, send := .limiting r } :=
      iterationStep (fun h => by cases h) (fun _ _ h => by cases h)
        (Option.map_eq_some_iff.mpr ⟨db, hdb, by rw [hr]⟩)
    obtain ⟨tr, t, hhanded, hidle⟩ :=
      @exists_handed lib cfg { s with db := db, send := .limiting r } r rfl
    exact ⟨_, t, (hrun.append (Run.single hcommit)).append hhanded, hidle⟩
  · -- the commit that raises
    exact ⟨_, _, hrun.append (Run.single (raise_step heq)), rfl⟩
  · exact ⟨[], _, hrun, heq⟩

/-- **Which answers the iteration settles.** -/
theorem resolves_iff (hi : Inv cfg s) (hpc : s.send = .publishing m) :
    Resolves lib cfg s m reply now ↔ escapes reply = false := by
  constructor
  · intro h
    by_contra hesc
    -- an exception ends the iteration, and nothing has been committed
    have hreply := Run.single (@reply_step lib cfg s m hpc reply now)
    rcases afterPublish_cases m reply now with
      ⟨-, hesc', -⟩ | ⟨-, hesc', -⟩ | ⟨-, ⟨hacks, heq⟩ | ⟨hacks, heq⟩⟩
    · exact hesc hesc'
    · exact hesc hesc'
    · have hsettled := h.settles [_] _ (hreply.append (Run.single (raise_step heq))) rfl
      obtain ⟨after, tr₁, stamp, u, v, htr, -⟩ := hsettled.published hacks
      have hmem : Action.send (.commit stamp) ∈
          [Action.send (.publishReply m.id reply now), .send .dbError] := by
        rw [htr]
        simp
      simp at hmem
    · have hsettled := h.settles [] _ hreply heq
      obtain ⟨⟨after, ⟨tr₁, stamp, u, v, htr, -⟩, -⟩, -⟩ := hsettled.fellBack hacks
      have hmem : Action.send (.commit stamp) ∈
          [Action.send (.publishReply m.id reply now)] := by
        rw [htr]
        simp
      simp at hmem
  · intro hesc
    refine ⟨exists_end hi hpc reply now, fun tr t hrun hidle => ?_⟩
    obtain ⟨u, hreply, hrest⟩ := hrun.cons_inv
    have hplain : Run lib cfg s (.send (.publishReply m.id reply now) :: tr) t := hrun.unguard
    have hhandling := handling_run hi hpc hesc hreply.2 hrest
    cases hhandling with
    | acknowledged receipt now' _ hpc' => rw [hidle] at hpc'; cases hpc'
    | fellBack _ hpc' => rw [hidle] at hpc'; cases hpc'
    | limiting r after _ hpc' => rw [hidle] at hpc'; cases hpc'
    | published after hacks _ hrow => exact ⟨fun _ => ⟨after, hrow⟩, fun hnot => absurd hacks hnot⟩
    | handed after hacks _ hrow hmem =>
      exact ⟨fun h => absurd h hacks,
        fun _ => ⟨⟨after, hrow, hmem⟩, not_published_after hi hplain hrow⟩⟩

end

/-! ## Once per message -/

/-- The label calls `publish` for the message. -/
def Action.isPublish (id : String) : Action → Bool
  | .send (.publish id') => id' = id
  | _ => false

/-- How often the trace calls `publish` for the message. -/
def publishes (id : String) (tr : List Action) : Nat := tr.countP (Action.isPublish id)

/-- Once `publish` was called: it is still awaited, its end is about to be committed, or the
    message is not for ntfy any more. -/
inductive Tried (s : Sys) (id : String) : Prop
  | awaited (m : Message) : s.send = .publishing m → m.id = id → Tried s id
  | recorded (o : Tracked Message) : s.send = .acknowledged o ∨ s.send = .fellBack o →
      o.loaded.id = id → Tried s id
  | done : s.Settled id →
      (∀ r ∈ s.db.messages, r.id = id → r.LeftQueue ∨ r.transport ≠ .ntfy) → Tried s id

/-- A step of a run without crashes in which no publication of the message escapes. -/
abbrev PublishStep (lib : Lib) (cfg : Settings) (id : String) : Sys → Action → Sys → Prop :=
  Guarded (fun _ a => ∀ reply now, a = .send (.publishReply id reply now) →
    escapes reply = false) (Guarded Settles (Step lib cfg))

section
variable {lib : Lib} {cfg : Settings} {env : Env} {s t : Sys} {a : Action} {tr : List Action}
  {id : String}

theorem isPublish_iff : a.isPublish id = true ↔ a = .send (.publish id) := by
  constructor
  · intro h
    cases a with
    | send b =>
      cases b with
      | publish id' =>
        obtain rfl : id' = id := of_decide_eq_true h
        rfl
      | _ => cases h
    | _ => cases h
  · rintro rfl
    exact decide_eq_true rfl

/-- A call of `publish` is awaited. -/
theorem tried_of_publish (hstep : Step lib cfg s a t) (ha : a.isPublish id = true) :
    Tried t id := by
  obtain rfl := isPublish_iff.mp ha
  cases (trans_of_step hstep).2 with
  | send h =>
    generalize s.send = pc at h
    cases h with
    | publish => exact .awaited _ rfl rfl

/-- A message that is not for ntfy any more stays that way, and is not published. -/
theorem over_step (hi : Inv cfg s) (hstep : Step lib cfg s a t) (hsettled : s.Settled id)
    (hrows : ∀ r ∈ s.db.messages, r.id = id → r.LeftQueue ∨ r.transport ≠ .ntfy) :
    Tried t id ∧ a.isPublish id = false := by
  obtain ⟨hfresh, h⟩ := trans_of_step hstep
  constructor
  · refine .done (hsettled.step hfresh h) fun r hr hid => ?_
    rcases rows_evolved hi h hr with ⟨r₀, hr₀, hevolved, hsame⟩ | ⟨c, -, hrow⟩
    · rcases hrows r₀ hr₀ (hsame.symm.trans hid) with hleft | hsms
      · exact .inl (leftQueue_evolved hleft hevolved)
      · exact .inr (not_ntfy_evolved hsms hevolved)
    · exact absurd ⟨r, hrow, hid⟩ (hsettled.2 c)
  · cases hpublish : a.isPublish id with
    | false => rfl
    | true =>
      -- `publish` is called for a row that is being sent, and for ntfy
      obtain rfl := isPublish_iff.mp hpublish
      obtain ⟨r, hr, hid, hs, hntfy⟩ := publish_row hi hstep
      rcases hrows r hr hid with hleft | hsms
      · exact absurd hs hleft.2
      · exact absurd hntfy hsms

/-- An answer that does not escape has an end to commit. -/
theorem tried_of_answer {m : Message} {b : SendLoop.Act} (hpc : s.send = .publishing m)
    (hanswer : ∀ reply now, b = .publishReply m.id reply now → escapes reply = false)
    (h : Trans lib cfg s (.send b) t) :
    Tried t m.id ∧ (Action.send b).isPublish m.id = false := by
  cases h with
  | send h =>
    rw [hpc] at h
    cases h with
    | @publishReply _ reply now =>
      refine ⟨?_, rfl⟩
      rcases afterPublish_cases m reply now with ⟨-, -, receipt, heq⟩ | ⟨-, -, heq⟩ | ⟨hesc, -⟩
      · exact .recorded _ (.inl heq) rfl
      · exact .recorded _ (.inr heq) rfl
      · rw [hanswer reply now rfl] at hesc
        cases hesc
    | dbError hdb => cases hdb

/-- What a publication came to takes the message away from ntfy. -/
theorem over_of_recorded {db : Store} {pc : SendLoop.Pc} {o : Tracked Message}
    (hi : SendInv cfg db pc) (hpc : pc = .acknowledged o ∨ pc = .fellBack o) (stamp : Time) :
    (o.saved stamp).LeftQueue ∨ (o.saved stamp).transport ≠ .ntfy := by
  rcases hpc with rfl | rfl
  · left
    obtain ⟨-, -, -, receipt, now, hcur⟩ := hi
    have hs : (o.saved stamp).status = .published := by
      rw [saved_status, hcur]
      rfl
    exact ⟨by rw [hs]; decide, by rw [hs]; decide⟩
  · right
    obtain ⟨-, -, -, hcur⟩ := hi
    rw [saved_transport, hcur]
    show Transport.smsFallback ≠ .ntfy
    decide

/-- It is committed, as long as commits succeed. -/
theorem commit_of_recorded {o : Tracked Message} {b : SendLoop.Act} {db : Store}
    {pc : SendLoop.Pc} (hpc : s.send = .acknowledged o ∨ s.send = .fellBack o)
    (hsettles : Settles s (.send b)) (h : SendLoop.Trans lib cfg s.db s.send b db pc) :
    ∃ stamp, b = .commit stamp ∧ s.db.updateMessages stamp s.send.objs = some db := by
  rcases hpc with hpc | hpc
  · rw [hpc] at h ⊢
    cases h with
    | acknowledged hdb => exact ⟨_, rfl, hdb⟩
    | dbError => exact absurd hpc (hsettles o).1
  · rw [hpc] at h ⊢
    cases h with
    | fellBack hdb => exact ⟨_, rfl, hdb⟩
    | dbError => exact absurd hpc (hsettles o).2

/-- Once that is committed, the message is not for ntfy any more. -/
theorem tried_of_commit {o : Tracked Message} {b : SendLoop.Act} (hi : Inv cfg s)
    (hpc : s.send = .acknowledged o ∨ s.send = .fellBack o) (hsettles : Settles s (.send b))
    (hfresh : Fresh s (.send b)) (h : Trans lib cfg s (.send b) t) :
    Tried t o.loaded.id ∧ (Action.send b).isPublish o.loaded.id = false := by
  have ho : o ∈ s.send.objs := by
    rcases hpc with hpc | hpc <;> rw [hpc] <;> exact List.mem_singleton.mpr rfl
  have hsettled : t.Settled o.loaded.id := (hi.row _ (hi.send.objs.2 o ho).1).2.step hfresh h
  cases h with
  | send h =>
    obtain ⟨stamp, rfl, hdb⟩ := commit_of_recorded hpc hsettles h
    refine ⟨.done hsettled fun r hr hid => ?_, rfl⟩
    rw [hi.send.eq_saved ho hdb hr hid]
    exact over_of_recorded hi.send hpc stamp

/-- **Once tried, not tried again.** -/
theorem tried_step (hi : Inv cfg s) (h : Tried s id) (hstep : PublishStep lib cfg id s a t) :
    Tried t id ∧ a.isPublish id = false := by
  obtain ⟨hanswer, hsettles, hstep⟩ := hstep
  obtain ⟨hfresh, htrans⟩ := trans_of_step hstep
  by_cases hown : ∃ b, a = .send b
  · obtain ⟨b, rfl⟩ := hown
    cases h with
    | done hsettled hrows => exact over_step hi hstep hsettled hrows
    | awaited m hpc hid =>
      subst hid
      exact tried_of_answer hpc (fun reply now heq => hanswer reply now (by rw [heq])) htrans
    | recorded o hpc hid =>
      subst hid
      exact tried_of_commit hi hpc hsettles hfresh htrans
  · -- another party has moved
    have hcrash : a ≠ .crash := by
      rintro rfl
      exact hsettles
    have hsame := send_of_other htrans (fun b hb => hown ⟨b, hb⟩) hcrash
    have hnot : a.isPublish id = false := by
      cases hpublish : a.isPublish id with
      | false => rfl
      | true => exact absurd ⟨_, isPublish_iff.mp hpublish⟩ hown
    cases h with
    | done hsettled hrows => exact over_step hi hstep hsettled hrows
    | awaited m hpc hid => exact ⟨.awaited m (hsame.trans hpc) hid, hnot⟩
    | recorded o hpc hid => exact ⟨.recorded o (by rw [hsame]; exact hpc) hid, hnot⟩

/-- A message none of whose publications escapes is published once at most. -/
theorem publishes_le_one
    (hrun : Transition.Run (Guarded Settles (Step lib cfg)) (Sys.init env) tr t)
    (hanswers : ∀ reply now, Action.send (.publishReply id reply now) ∈ tr →
      escapes reply = false) : publishes id tr ≤ 1 := by
  have hguard : Transition.Run (PublishStep lib cfg id) (Sys.init env) tr t :=
    hrun.guard fun a ha reply now heq => hanswers reply now (heq ▸ ha)
  exact Run.atMostOnce (J := Inv cfg) (I := fun s => Tried s id)
    (fun _ _ _ hi hstep => inv_step hi hstep.2.2)
    (fun _ _ _ _ hstep hp => tried_of_publish hstep.2.2 hp)
    (fun _ _ _ hi htried hstep => tried_step hi htried hstep) (inv_init cfg env) hguard

end

/-- **Every publication that is not acknowledged falls back**, exactly when it does not end in
    an exception that the `except` clause does not name, nor in a receipt whose id cannot be
    stored.  A message of whose publications none ends so is published once at most. -/
theorem publish_resolved_iff (lib : Lib) (cfg : Settings) (env : Env) :
    (∀ tr s m reply now, Run lib cfg (Sys.init env) tr s → s.send = .publishing m →
      (Resolves lib cfg s m reply now ↔ escapes reply = false)) ∧
    ∀ tr t id, Transition.Run (Guarded Settles (Step lib cfg)) (Sys.init env) tr t →
      (∀ reply now, Action.send (.publishReply id reply now) ∈ tr → escapes reply = false) →
        publishes id tr ≤ 1 := by
  constructor
  · intro tr s m reply now hrun hpc
    exact resolves_iff (inv_reachable hrun) hpc
  · intro tr t id hrun hanswers
    exact publishes_le_one hrun hanswers

/-- The promise, of every reachable publication and every answer to it. -/
def PublishResolved (lib : Lib) (cfg : Settings) (env : Env) : Prop :=
  (∀ tr s m reply now, Run lib cfg (Sys.init env) tr s → s.send = .publishing m →
    Resolves lib cfg s m reply now) ∧
  ∀ tr t id, Transition.Run (Guarded Settles (Step lib cfg)) (Sys.init env) tr t →
    publishes id tr ≤ 1

namespace Sample

/-- The message a publication is awaited for. -/
def publishing (s : Sys) : Option String :=
  match s.send with
  | .publishing m => some m.id
  | _ => none

theorem publishing_eq {s : Sys} {id : String} (h : publishing s = some id) :
    ∃ m, s.send = .publishing m ∧ m.id = id := by
  unfold publishing at h
  split at h
  · next m hpc => exact ⟨m, hpc, Option.some.inj h⟩
  · cases h

/-- A crash, or a commit of the send loop that fails. -/
def isFailure : Action → Bool
  | .crash => true
  | .send .dbError => true
  | _ => false

/-- A run without failures. -/
theorem run_settles {lib : Lib} {cfg : Settings} {s t : Sys} {tr : List Action}
    (hrun : Run lib cfg s tr t) (h : ∀ a ∈ tr, isFailure a = false) :
    Transition.Run (Guarded Settles (Step lib cfg)) s tr t := by
  refine (hrun.guard h).mono fun u a v hstep => ⟨?_, hstep.2⟩
  have hnot := hstep.1
  cases a with
  | crash => cases hnot
  | send b =>
    cases b with
    | dbError => cases hnot
    | _ => trivial
  | _ => trivial

/-- A message is queued, claimed and handed to `publish`. -/
def handedToPublish : List Action :=
  queue "m1" 0 ++
    [.send (.requeueSelect 1 1), .send (.claimSelect 1 (some "m1")), .send (.commit 1),
      .send (.publish "m1")]

/-- The port of the ntfy URL is not a number, so that building the request fails. -/
def badUrlCfg : Settings := { Sample.cfg with ntfyUrl := "https://ntfy.example:port" }

/-- The exception escapes, the row is stuck for more than five minutes, and is published
    again. -/
def publishedTwice : List Action :=
  handedToPublish ++
    [.send (.publishReply "m1" (.error (.other "InvalidURL")) 1),
      .send (.requeueSelect (seconds 400) (seconds 400)), .send (.commit (seconds 400)),
      .send (.claimSelect (seconds 400) (some "m1")), .send (.commit (seconds 400)),
      .send (.publish "m1")]

end Sample

/-- A publication that times out falls back, and is not repeated. -/
theorem publish_resolved_iff_fellBack :
    (∃ s m, Run Sample.lib Sample.ntfyCfg (Sys.init Sample.ntfyEnv) Sample.handedToPublish s ∧
      s.send = .publishing m ∧
      Resolves Sample.lib Sample.ntfyCfg s m (.error .timeout) 9) ∧
    publishes "m1" Sample.fellBack ≤ 1 := by
  obtain ⟨hresolves, honce⟩ := publish_resolved_iff Sample.lib Sample.ntfyCfg Sample.ntfyEnv
  constructor
  · obtain ⟨s, hrun, hs⟩ : ∃ s,
        Run Sample.lib Sample.ntfyCfg (Sys.init Sample.ntfyEnv) Sample.handedToPublish s ∧
        Sample.publishing s = some "m1" :=
      run_of_exec_map (by decide +kernel)
    obtain ⟨m, hpc, -⟩ := Sample.publishing_eq hs
    exact ⟨s, m, hrun, hpc, (hresolves _ s m _ 9 hrun hpc).mpr rfl⟩
  · obtain ⟨t, hrun, -⟩ : ∃ t,
        Run Sample.lib Sample.ntfyCfg (Sys.init Sample.ntfyEnv) Sample.fellBack t ∧
        Sample.publishing t = none :=
      run_of_exec_map (by decide +kernel)
    refine honce _ t "m1" (Sample.run_settles hrun (by decide)) fun reply now hmem => ?_
    simp only [Sample.fellBack, Sample.queue, List.cons_append, List.nil_append,
      List.mem_cons, List.not_mem_nil, reduceCtorEq, false_or, or_false,
      Action.send.injEq, SendLoop.Act.publishReply.injEq] at hmem
    obtain ⟨-, rfl, -⟩ := hmem
    rfl

/-- An `httpx.InvalidURL` escapes, and the message is published twice. -/
theorem not_publishResolved_invalidUrl :
    ¬ PublishResolved Sample.lib Sample.badUrlCfg Sample.ntfyEnv := by
  intro hclaim
  obtain ⟨t, hrun, -⟩ : ∃ t,
      Run Sample.lib Sample.badUrlCfg (Sys.init Sample.ntfyEnv) Sample.publishedTwice t ∧
      Sample.publishing t = some "m1" :=
    run_of_exec_map (by decide +kernel)
  have honce := hclaim.2 _ t "m1" (Sample.run_settles hrun (by decide))
  have htwice : publishes "m1" Sample.publishedTwice = 2 := by decide
  omega

end SmsRelay
