import SmsRelay.Spec.Queue
import SmsRelay.ForStd.Except

/-!
# The fan-out invariant

A batch of the fan-out loop works on rows it loaded at its selection, and commits them
together at its end.  Nobody else writes a delivery that exists, so the loaded rows are
the committed rows until then, unless the retention sweep removes them.

## Key results

- `Outcome`: what handling one delivery makes of its row
- `deliveries_origin`: where each delivery of the next state comes from
- `fanInv_reachable`: the invariant of rows and session in every reachable state
-/

namespace SmsRelay

open UnitOfWork Transition Webhooks

/-! ## One attempt -/

/-- What handling a delivery makes of its row. -/
inductive Outcome (d : WebhookDelivery) : WebhookDelivery → Prop
  | cancelled (error : Option String) :
      Outcome d { d with status := .cancelled, error := error }
  | delivered (code : Nat) :
      Outcome d { d with
        attempts := d.attempts + 1
        responseCode := some code
        status := .delivered
        error := none }
  | failed (code : Option Nat) (error : Option String) :
      maxDeliveryAttempts ≤ d.attempts + 1 →
      Outcome d { d with
        attempts := d.attempts + 1, responseCode := code, status := .failed, error := error }
  | retry (code : Option Nat) (error : Option String) (now : Time) :
      d.attempts + 1 < maxDeliveryAttempts →
      Outcome d { d with
        attempts := d.attempts + 1
        responseCode := code
        status := .pending
        nextAttemptAt := some (backoff now (d.attempts + 1))
        error := error }

/-- The columns no attempt writes. -/
def WebhookDelivery.content (d : WebhookDelivery) :=
  (d.id, d.messageId, d.subscriber, d.url, d.createdAt)

theorem Outcome.frame {d d' : WebhookDelivery} (h : Outcome d d') : d'.content = d.content := by
  cases h <;> rfl

/-- An attempt on a pending row always changes it. -/
theorem Outcome.changes {d d' : WebhookDelivery} (h : Outcome d d') :
    d'.status ≠ .pending ∨ d'.attempts = d.attempts + 1 := by
  cases h with
  | cancelled => exact .inl nofun
  | delivered | failed | retry => exact .inr rfl

/-- The delivery as `deliver` posts it. -/
def WebhookDelivery.attempted (d : WebhookDelivery) : WebhookDelivery :=
  { d with attempts := d.attempts + 1 }

/-- The end of an attempt that was not acknowledged. -/
theorem outcome_retryOrFail (d : WebhookDelivery) (code : Option Nat) (error : Option String)
    (now : Time) :
    Outcome d (retryOrFail now { d.attempted with responseCode := code, error := error }) := by
  unfold retryOrFail WebhookDelivery.attempted
  dsimp only
  split
  · next hmax => exact .failed code error hmax
  · next hmax => exact .retry code error now (Nat.lt_of_not_le hmax)

/-- What `deliver` makes of the answer to its `POST`. -/
theorem outcome_conclude {d : WebhookDelivery} {c : Concluded} {reply : HttpReply} {now : Time}
    (h : conclude d.attempted reply now = .ok c) : Outcome d c.delivery := by
  unfold conclude at h
  split at h
  · split at h
    · obtain rfl := Except.ok.inj h
      exact .delivered _
    · split at h
      · cases h
      · obtain rfl := Except.ok.inj h
        exact outcome_retryOrFail d _ _ now
  · obtain rfl := Except.ok.inj h
    exact outcome_retryOrFail d d.responseCode _ now
  · cases h

/-- The subscriber that `deliver` posts the delivery to. -/
def subscriberFor (subscribers : List Subscriber) (d : WebhookDelivery) : Option Subscriber :=
  subscribers.find? fun s => s.name = PyStr.text d.subscriber

/-- `deliver` raises before its `POST`: `settings.subscribers` cannot be evaluated, or the
    secret of the delivery's subscriber cannot be encoded. -/
def RaisesEarly (env : Env) (d : WebhookDelivery) : Prop :=
  match env.subscribers with
  | .error _ => True
  | .ok subscribers => ∃ sub ∈ subscriberFor subscribers d, sub.secret.encode = none

instance (env : Env) (d : WebhookDelivery) : Decidable (RaisesEarly env d) := by
  unfold RaisesEarly
  split <;> infer_instance

/-- A request can be built unless its secret cannot be encoded. -/
theorem request_cases (lib : Lib) (sub : Subscriber) (d : WebhookDelivery) (m : Message) :
    (sub.secret.encode = none ∧ request lib sub d m = .error .unicodeEncodeError) ∨
      (sub.secret.encode ≠ none ∧ ∃ r, request lib sub d m = .ok r) := by
  obtain ⟨name, url, secret, events⟩ := sub
  cases secret with
  | lone secret => exact .inl ⟨rfl, rfl⟩
  | text secret =>
    refine .inr ⟨nofun, ?_⟩
    unfold request signature
    dsimp only
    split <;> exact ⟨_, rfl⟩

/-- The row of a delivery whose subscriber was removed. -/
def WebhookDelivery.unsubscribed (d : WebhookDelivery) : WebhookDelivery :=
  { d with status := .cancelled, error := some "subscriber no longer configured" }

/-- **What `deliver` does before its `POST`**: it raises, cancels the delivery, or builds the
    request. -/
theorem prepare_cases (lib : Lib) (env : Env) (d : WebhookDelivery) (m : Message) :
    (RaisesEarly env d ∧ ∃ e, prepare lib env d m = .error e) ∨
      ∃ subscribers, env.subscribers = .ok subscribers ∧
        ((subscriberFor subscribers d = none ∧
            prepare lib env d m = .ok (.cancelled d.unsubscribed)) ∨
          ∃ sub r, subscriberFor subscribers d = some sub ∧ sub.secret.encode ≠ none ∧
            request lib sub d m = .ok r ∧ prepare lib env d m = .ok (.post d.attempted r)) := by
  unfold prepare RaisesEarly
  cases env.subscribers with
  | error e => exact .inl ⟨trivial, e, rfl⟩
  | ok subscribers =>
    simp only [Except.bind]
    cases hsub : subscriberFor subscribers d with
    | none =>
      unfold subscriberFor at hsub
      rw [hsub]
      exact .inr ⟨subscribers, rfl, .inl ⟨hsub, rfl⟩⟩
    | some sub =>
      have hfind := hsub
      unfold subscriberFor at hfind
      rw [hfind]
      rcases request_cases lib sub d m with ⟨hnone, hreq⟩ | ⟨hsome, r, hreq⟩
      · refine .inl ⟨⟨sub, rfl, hnone⟩, .unicodeEncodeError, ?_⟩
        simp only [hreq]
        rfl
      · refine .inr ⟨subscribers, rfl, .inr ⟨sub, r, hsub, hsome, hreq, ?_⟩⟩
        simp only [hreq]
        rfl

/-- `deliver` comes to its `POST`, or returns before it, unless it raises. -/
theorem exists_prepare_iff {lib : Lib} {env : Env} {d : WebhookDelivery} {m : Message} :
    (∃ p, prepare lib env d m = .ok p) ↔ ¬ RaisesEarly env d := by
  constructor
  · rintro ⟨p, hp⟩ hraises
    rcases prepare_cases lib env d m with
      ⟨-, e, hprep⟩ | ⟨subscribers, hsubs, ⟨hnone, -⟩ | ⟨sub, r, hsub, hsecret, -⟩⟩
    · rw [hp] at hprep
      cases hprep
    · simp [RaisesEarly, hsubs, hnone] at hraises
    · simp [RaisesEarly, hsubs, hsub, hsecret] at hraises
  · intro hraises
    rcases prepare_cases lib env d m with
      ⟨hearly, -⟩ | ⟨subscribers, hsubs, ⟨-, hprep⟩ | ⟨sub, r, -, -, -, hprep⟩⟩
    · exact absurd hearly hraises
    · exact ⟨_, hprep⟩
    · exact ⟨_, hprep⟩

namespace FanoutLoop

/-! ## The session -/

/-- Handling is over for `o`, up to the stamp of an early flush. -/
def Handled (o : Tracked WebhookDelivery) : Prop :=
  Outcome o.loaded { o.current with updatedAt := o.loaded.updatedAt }

/-- The rows a program point is working on: what was handled, and what is left. -/
def Pc.batch : Pc → List WebhookDelivery
  | .idle => []
  | .next ses todo => ses.objs.map Tracked.loaded ++ todo
  | .ready ses o _ todo => ses.objs.map Tracked.loaded ++ o.loaded :: todo
  | .posting ses o _ todo => ses.objs.map Tracked.loaded ++ o.loaded :: todo

/-- The objects handled so far. -/
def Pc.handled : Pc → List (Tracked WebhookDelivery)
  | .idle => []
  | .next ses _ => ses.objs
  | .ready ses _ _ _ => ses.objs
  | .posting ses _ _ _ => ses.objs

/-- The object in hand. -/
def Pc.current : Pc → Option (Tracked WebhookDelivery)
  | .ready _ o _ _ => some o
  | .posting _ o _ _ => some o
  | _ => none

/-- The two ways `session.get` returns. -/
theorem getMessage_eq_some {db : Store} {ses ses' : Session} {collected : List String}
    {now : Time} {messageId : String} {message : Option Message}
    (h : getMessage db ses collected now messageId = some (ses', message)) :
    (∃ m ∈ ses.reachable collected, m.id = messageId ∧ message = some m ∧
        ses' = ses.hold collected (some m)) ∨
      ((∀ m ∈ ses.reachable collected, m.id ≠ messageId) ∧ ses.bindable = true ∧
        Matched ses.objs db.deliveries ∧ message = db.message? messageId ∧
        ses' = (ses.autoflush now).hold collected message) := by
  unfold getMessage at h
  split at h
  · next m hfind =>
    obtain ⟨rfl, rfl⟩ := Prod.mk.inj (Option.some.inj h)
    exact .inl ⟨m, List.mem_of_find?_eq_some hfind, by simpa using List.find?_some hfind, rfl, rfl⟩
  · next hfind =>
    split at h
    · next hflush =>
      obtain ⟨rfl, rfl⟩ := Prod.mk.inj (Option.some.inj h)
      exact .inr ⟨by simpa using List.find?_eq_none.mp hfind, hflush.1, hflush.2, rfl, rfl⟩
    · cases h

/-- Where the loop goes once the message is looked up. -/
theorem handle_cases (lib : Lib) (env : Env) (ses : Session) (d : WebhookDelivery)
    (message : Option Message) (todo : List WebhookDelivery) :
    (handle lib env ses d message todo = .idle ∧ RaisesEarly env d) ∨
      (∃ d', Outcome d d' ∧ d'.status = .cancelled ∧
        handle lib env ses d message todo = .next (ses.push ⟨d, d'⟩) todo) ∨
      ∃ m request, message = some m ∧
        handle lib env ses d message todo = .ready ses ⟨d, d.attempted⟩ request todo := by
  -- A message that is gone cancels its delivery; the rest is up to `prepare`
  cases message with
  | none => exact .inr (.inl ⟨_, .cancelled d.error, rfl, rfl⟩)
  | some m =>
    simp only [handle]
    rcases prepare_cases lib env d m with
      ⟨hraises, e, hprep⟩ | ⟨subscribers, -, ⟨-, hprep⟩ | ⟨sub, r, -, -, -, hprep⟩⟩
    · exact .inl ⟨by rw [hprep], hraises⟩
    · exact .inr (.inl ⟨d.unsubscribed, .cancelled _, rfl, by rw [hprep]⟩)
    · exact .inr (.inr ⟨m, r, rfl, by rw [hprep]⟩)

/-- An early flush stamps the objects and keeps what they are. -/
theorem mem_autoflush {ses : Session} {now : Time} {o : Tracked WebhookDelivery}
    (ho : o ∈ (ses.autoflush now).objs) : ∃ o' ∈ ses.objs, o.loaded = o'.loaded ∧
      o.current = { o'.current with updatedAt := o.current.updatedAt } := by
  obtain ⟨o', ho', rfl⟩ := List.mem_map.mp ho
  refine ⟨o', ho', ?_⟩
  split <;> exact ⟨rfl, rfl⟩

theorem map_loaded_autoflush (ses : Session) (now : Time) :
    (ses.autoflush now).objs.map Tracked.loaded = ses.objs.map Tracked.loaded := by
  simp only [Session.autoflush, List.map_map]
  refine List.map_congr_left fun o _ => ?_
  simp only [Function.comp_apply]
  split <;> rfl

end FanoutLoop

/-! ## Deliveries on their way into the database -/

namespace Inbound

/-- The deliveries a call is about to commit. -/
def Pc.deliveries : Pc → List WebhookDelivery
  | .fanned _ deliveries => deliveries
  | _ => []

@[simp] theorem Pc.crashed_deliveries (pc : Pc) : pc.crashed.deliveries = [] := by
  cases pc <;> rfl

/-- The rows `enqueue_fanout` adds: pending, not yet attempted, under the ids drawn. -/
theorem mem_enqueueFanout {messageId : String} {subs : List Subscriber} {uuids : List String}
    {now : Time} {ds : List WebhookDelivery} (h : enqueueFanout messageId subs uuids now = some ds)
    {d : WebhookDelivery} (hd : d ∈ ds) : ∃ id ∈ uuids, ∃ sub ∈ subs, ∃ name url,
      sub.name = .text name ∧ sub.url = .text url ∧ d = newDelivery messageId id name url now := by
  obtain ⟨⟨id, sub⟩, hmem, hrow⟩ := Option.exists_of_mem_mapM h hd
  simp only [bind, pure, Option.bind_eq_some_iff, Option.some.injEq] at hrow
  obtain ⟨name, hname, url, hurl, rfl⟩ := hrow
  exact ⟨id, (List.of_mem_zip hmem).1, sub, (List.of_mem_zip hmem).2, name, url,
    PyStr.encode_eq_some.mp hname, PyStr.encode_eq_some.mp hurl, rfl⟩

theorem enqueue_deliveries {env : Env} {db : Store} {m : Message} {uuids : List String}
    {now : Time} {pc : Pc} (h : enqueue env db m uuids now = some pc) {d : WebhookDelivery}
    (hd : d ∈ pc.deliveries) : d.id ∈ uuids ∧ d.status = .pending ∧ d.attempts = 0 := by
  unfold enqueue at h
  split at h
  · obtain rfl := Option.some.inj h
    cases hd
  · dsimp only at h
    split at h
    · split at h
      · next hds =>
        obtain rfl := Option.some.inj h
        obtain ⟨id, hid, _, -, _, _, -, -, rfl⟩ := mem_enqueueFanout hds hd
        exact ⟨hid, rfl, rfl⟩
      · obtain rfl := Option.some.inj h
        cases hd
    · cases h

theorem beginMessage_deliveries {lib : Lib} {cfg : Settings} (event : List (PyStr × Json PyStr)) :
    (beginMessage lib cfg event).deliveries = [] := by
  unfold beginMessage
  dsimp only
  split
  · rfl
  · split
    · rfl
    · split <;> rfl

theorem begin_deliveries {lib : Lib} {cfg : Settings} (event : Except LoadsError (Json PyStr)) :
    (begin lib cfg event).deliveries = [] := by
  unfold begin
  split
  · rfl
  · rfl
  · split
    · exact beginMessage_deliveries _
    · exact beginMessage_deliveries _
    · unfold beginReceipt
      dsimp only
      split <;> rfl
    · unfold beginReceipt
      dsimp only
      split <;> rfl
    · rfl
  · rfl

/-- A call's deliveries are new ones, under ids just drawn. -/
theorem Trans.deliveries {lib : Lib} {cfg : Settings} {env : Env} {db db' : Store}
    {pc pc' : Pc} {a : Act} (h : Trans lib cfg env db pc a db' pc') {d : WebhookDelivery}
    (hd : d ∈ pc'.deliveries) :
    ∃ uuids now, a = .enqueue uuids now ∧ d.id ∈ uuids ∧ d.status = .pending ∧
      d.attempts = 0 := by
  -- Only the enqueue comes to deliveries
  cases h with
  | begin =>
    rw [begin_deliveries] at hd
    cases hd
  | dedup =>
    unfold afterDedup at hd
    split at hd
    · cases hd
    · split at hd <;> cases hd
  | enqueue henq => exact ⟨_, _, rfl, enqueue_deliveries henq hd⟩
  | receipt =>
    unfold afterReceiptSelect at hd
    split at hd
    · cases hd
    · split at hd
      · cases hd
      · cases hd
      · split at hd <;> cases hd
  | flush | refuse | commit | unbindable | receiptCommit | dbError => cases hd

end Inbound

/-- The id was drawn for a delivery, and no call is about to commit one under it. -/
def Sys.DeliverySettled (s : Sys) (id : String) : Prop :=
  id ∈ s.used ∧ ∀ call, ∀ d ∈ (s.inbounds call).deliveries, d.id ≠ id

/-- `d` is its row of the database, or the row is gone for good. -/
structure Standing (s : Sys) (d : WebhookDelivery) : Prop where
  settled : s.DeliverySettled d.id
  message : s.Settled d.messageId
  row : ∀ r ∈ s.db.deliveries, r.id = d.id → r = d

/-- What holds of every delivery of a reachable database. -/
structure DeliveryRow (d : WebhookDelivery) : Prop where
  pending : d.status = .pending → d.attempts < maxDeliveryAttempts
  attempts : d.attempts ≤ maxDeliveryAttempts

/-- **The fan-out invariant.** -/
structure FanInv (s : Sys) : Prop where
  row : ∀ d ∈ s.db.deliveries, s.DeliverySettled d.id ∧ DeliveryRow d
  call_row : ∀ call, ∀ d ∈ (s.inbounds call).deliveries,
    d.id ∈ s.used ∧ d.status = .pending ∧ d.attempts = 0
  call_unique : ∀ call call' d d', d ∈ (s.inbounds call).deliveries →
    d' ∈ (s.inbounds call').deliveries → d.id = d'.id → call = call'
  nodup : (s.fanout.batch.map WebhookDelivery.id).Nodup
  standing : ∀ d ∈ s.fanout.batch, Standing s d ∧ d.status = .pending ∧
    d.attempts < maxDeliveryAttempts
  handled : ∀ o ∈ s.fanout.handled, FanoutLoop.Handled o
  current : ∀ o ∈ s.fanout.current, o.current = o.loaded.attempted

/-! ## What a step does to the deliveries -/

/-- A handled object keeps its id. -/
theorem FanoutLoop.Handled.content {o : Tracked WebhookDelivery} (h : FanoutLoop.Handled o) :
    o.current.content = o.loaded.content := by
  have hout : Outcome o.loaded { o.current with updatedAt := o.loaded.updatedAt } := h
  exact hout.frame

theorem FanoutLoop.Handled.dirty {o : Tracked WebhookDelivery} (h : FanoutLoop.Handled o)
    (hs : o.loaded.status = .pending) : o.Dirty := by
  intro heq
  have hout : Outcome o.loaded { o.current with updatedAt := o.loaded.updatedAt } := h
  rcases hout.changes with hstatus | hatt
  · exact hstatus (by rw [heq]; exact hs)
  · simp only [heq] at hatt
    omega

theorem WebhookDelivery.id_eq_of_content {d d' : WebhookDelivery} (h : d'.content = d.content) :
    d'.id = d.id := congrArg Prod.fst h

/-- Handled objects keep the keys of their rows. -/
theorem FanoutLoop.keepsKeys {objs : List (Tracked WebhookDelivery)}
    (h : ∀ o ∈ objs, FanoutLoop.Handled o) : KeepsKeys objs :=
  fun o ho => WebhookDelivery.id_eq_of_content (h o ho).content

/-- What the flush of handled objects makes of the row of one of them. -/
theorem flushRow_handled (now : Time) {objs : List (Tracked WebhookDelivery)}
    (h : ∀ o ∈ objs, FanoutLoop.Handled o) (hnd : (objs.map fun o => o.loaded.id).Nodup)
    {o : Tracked WebhookDelivery} (ho : o ∈ objs) (hs : o.loaded.status = .pending) :
    flushRow now objs o.loaded =
      { o.current with updatedAt := onUpdate now o.loaded.updatedAt o.current.updatedAt } := by
  rw [flushRow_of_mem now (FanoutLoop.keepsKeys h) hnd ho rfl, Tracked.writeTo,
    if_pos ⟨(h o ho).dirty hs, rfl⟩, WebhookDelivery.update_loaded]

/-- A flush of handled objects touches no column that no attempt writes. -/
theorem content_flushRow (now : Time) {objs : List (Tracked WebhookDelivery)}
    (h : ∀ o ∈ objs, FanoutLoop.Handled o) (d : WebhookDelivery) :
    (flushRow now objs d).content = d.content := by
  refine flushRow_frame WebhookDelivery.content now (fun o ho r => ?_) d
  have hcontent := (h o ho).content
  simp only [WebhookDelivery.content, Prod.mk.injEq] at hcontent
  obtain ⟨hid, hmessage, hsub, hurl, hcreated⟩ := hcontent
  unfold Tracked.writeTo
  split
  · simp [WebhookDelivery.content, Entity.update, hid, hmessage, hsub, hurl, hcreated]
  · rfl

/-- A delivery of the next state is an old one, or one that the batch has just committed,
    or a new one. -/
inductive DeliveryOrigin (s : Sys) (a : Action) (t : Sys) (d : WebhookDelivery) : Prop
  | kept : d ∈ s.db.deliveries → (∀ now, a = .fanout (.commit now) →
      ∀ o ∈ s.fanout.handled, d.id ≠ o.loaded.id) → DeliveryOrigin s a t d
  | committed {now : Time} {ses : FanoutLoop.Session} {o : Tracked WebhookDelivery} :
      a = .fanout (.commit now) → s.fanout = .next ses [] → o ∈ ses.objs →
      o.loaded ∈ s.db.deliveries → d = { o.current with updatedAt := d.updatedAt } →
      ses.bindable = true → DeliveryOrigin s a t d
  | inserted {call : Nat} {now : Time} : a = .inbound call (.commit now) →
      d ∈ (s.inbounds call).deliveries → (t.inbounds call).deliveries = [] →
      DeliveryOrigin s a t d

/-- The commit of a batch turns each row of the batch into its object. -/
theorem deliveries_commit {s t : Sys} {now : Time} {ses : FanoutLoop.Session} (hi : FanInv s)
    (hpc : s.fanout = .next ses []) (hbind : ses.bindable = true)
    (h : s.db.updateDeliveries now ses.objs = some t.db)
    {d : WebhookDelivery} (hd : d ∈ t.db.deliveries) :
    DeliveryOrigin s (.fanout (.commit now)) t d := by
  obtain ⟨-, hds, -⟩ := Store.updateDeliveries_eq_some.mp h
  have hnd := hi.nodup
  have hstanding := hi.standing
  have hhandled := hi.handled
  rw [hpc] at hnd hstanding hhandled
  simp only [FanoutLoop.Pc.batch, FanoutLoop.Pc.handled, List.append_nil, List.map_map]
    at hnd hstanding hhandled
  rw [hds] at hd
  obtain ⟨r, hr, rfl⟩ := List.mem_map.mp hd
  -- a row of the batch becomes its object, and the others stay
  by_cases hobj : ∃ o ∈ ses.objs, r.id = o.loaded.id
  · obtain ⟨o, ho, hid⟩ := hobj
    obtain ⟨hst, hs, -⟩ := hstanding o.loaded (List.mem_map_of_mem ho)
    obtain rfl := hst.row r hr hid
    refine .committed rfl hpc ho hr ?_ hbind
    rw [flushRow_handled now hhandled hnd ho hs]
  · have hne : ∀ o ∈ ses.objs, r.id ≠ o.loaded.id := fun o ho hid => hobj ⟨o, ho, hid⟩
    rw [flushRow_eq_self now fun o ho _ => hne o ho]
    exact .kept hr fun _ _ o ho => hne o (by rwa [hpc] at ho)

/-- **Where the deliveries of the next state come from.** -/
theorem deliveries_origin {lib : Lib} {cfg : Settings} {s t : Sys} {a : Action} (hi : FanInv s)
    (h : Trans lib cfg s a t) {d : WebhookDelivery} (hd : d ∈ t.db.deliveries) :
    DeliveryOrigin s a t d := by
  -- Two parties write deliveries: the fan-out loop and the calls of the webhook
  cases h with
  | send h =>
    refine .kept ?_ (fun _ h => by cases h)
    rcases h.db_cases with rfl | ⟨now, -, hdb⟩
    · exact hd
    · rwa [(Store.updateMessages_eq_some.mp hdb).2.2] at hd
  | status h =>
    refine .kept ?_ (fun _ h => by cases h)
    rcases h.db_cases with rfl | ⟨now, -, -, hdb⟩
    · exact hd
    · rwa [(Store.updateMessages_eq_some.mp hdb).2.2] at hd
  | prune =>
    refine .kept ?_ (fun _ h => by cases h)
    exact List.mem_of_mem_filter hd
  | sendMessage h =>
    refine .kept ?_ (fun _ h => by cases h)
    rcases h.effect with ⟨rfl, -⟩ | ⟨rfl, -⟩ | ⟨-, hdb, -⟩
    · exact hd
    · exact hd
    · rwa [(Store.insertMessages_eq_some.mp hdb).2] at hd
  | configure => exact .kept hd (fun _ h => by cases h)
  | crash => exact .kept hd (fun _ h => by cases h)
  | @fanout b db pc h =>
    generalize hpc : s.fanout = pc₀ at h
    cases h with
    | commit hbind hdb => exact deliveries_commit hi hpc hbind hdb hd
    | _ => exact .kept hd (fun _ h => by cases h)
  | @inbound call b db pc h =>
    generalize hpc : s.inbounds call = pc₀ at h
    cases h with
    | commit hdb =>
      rw [(Store.insertInbound_eq_some.mp hdb).2] at hd
      rcases List.mem_append.mp hd with hd | hd
      · exact .kept hd (fun _ h => by cases h)
      · exact .inserted rfl (by rw [hpc]; exact hd) (by simp [Inbound.Pc.deliveries])
    | receiptCommit hdb =>
      rw [(Store.updateMessages_eq_some.mp hdb).2.2] at hd
      exact .kept hd (fun _ h => by cases h)
    | _ => exact .kept hd (fun _ h => by cases h)

/-! ## The invariant is kept -/

/-- What a call holds after a step: what it held before, or new deliveries. -/
theorem callDeliveries_step {lib : Lib} {cfg : Settings} {s t : Sys} {a : Action}
    (h : Trans lib cfg s a t) {call : Nat} {d : WebhookDelivery}
    (hd : d ∈ (t.inbounds call).deliveries) :
    d ∈ (s.inbounds call).deliveries ∨ ((∃ b, a = .inbound call b) ∧ d.id ∈ a.uuids ∧
      d.status = .pending ∧ d.attempts = 0) := by
  cases h.inbound_step call with
  | other _ hpc => exact .inl (hpc ▸ hd)
  | crash hpc => simp [hpc] at hd
  | own h =>
    obtain ⟨uuids, now, rfl, hid, hs, hatt⟩ := h.deliveries hd
    exact .inr ⟨⟨_, rfl⟩, hid, hs, hatt⟩

/-- A settled delivery id stays settled. -/
theorem Sys.DeliverySettled.step {lib : Lib} {cfg : Settings} {s t : Sys} {a : Action}
    {id : String} (hs : s.DeliverySettled id) (hfresh : Fresh s a) (h : Trans lib cfg s a t) :
    t.DeliverySettled id := by
  refine ⟨by rw [used_step h]; exact List.mem_append_right _ hs.1, fun call d hd hid => ?_⟩
  rcases callDeliveries_step h hd with hold | ⟨-, hnew, -⟩
  · exact hs.2 call d hold hid
  · exact hfresh.2 _ hnew (hid ▸ hs.1)

/-- A row of the batch keeps standing until the batch is committed. -/
theorem Standing.step {lib : Lib} {cfg : Settings} {s t : Sys} {a : Action}
    {d : WebhookDelivery} (hd : Standing s d) (hi : FanInv s) (hfresh : Fresh s a)
    (h : Trans lib cfg s a t) (ha : ∀ now, a ≠ .fanout (.commit now)) : Standing t d := by
  refine ⟨hd.settled.step hfresh h, hd.message.step hfresh h, fun r hr hid => ?_⟩
  cases deliveries_origin hi h hr with
  | kept hold _ => exact hd.row r hold hid
  | committed hcommit => exact absurd hcommit (ha _)
  | inserted _ hcall _ => exact absurd hid (hd.settled.2 _ r hcall)

/-- A committed delivery stands for itself. -/
theorem FanInv.standing_self {cfg : Settings} {s : Sys} (hi : FanInv s) (hinv : Inv cfg s)
    {d : WebhookDelivery} (hd : d ∈ s.db.deliveries) : Standing s d := by
  refine ⟨(hi.row d hd).1, ?_, fun r hr hid => Store.eq_of_deliveryId hr hd hid⟩
  obtain ⟨m, hm, hid⟩ := List.mem_map.mp (s.db.integrity.fkMessage d hd)
  rw [← hid]
  exact (hinv.row m hm).2

/-- Handling keeps the budget of attempts. -/
theorem Outcome.row {d d' : WebhookDelivery} (h : Outcome d d')
    (hlt : d.attempts < maxDeliveryAttempts) : DeliveryRow d' := by
  cases h with
  | cancelled => exact ⟨nofun, Nat.le_of_lt hlt⟩
  | delivered | failed => exact ⟨nofun, hlt⟩
  | retry _ _ _ hretry => exact ⟨fun _ => hretry, hlt⟩

/-- What a handled row is once it is committed. -/
theorem deliveryRow_of_handled {o : Tracked WebhookDelivery} (h : FanoutLoop.Handled o)
    (hlt : o.loaded.attempts < maxDeliveryAttempts) {d : WebhookDelivery}
    (hd : d = { o.current with updatedAt := d.updatedAt }) : DeliveryRow d := by
  have hout : Outcome o.loaded { o.current with updatedAt := o.loaded.updatedAt } := h
  have hrow := hout.row hlt
  rw [hd]
  exact ⟨hrow.pending, hrow.attempts⟩

namespace FanoutLoop

/-- What one of its own steps makes of the rows and objects of the loop. -/
inductive Progress (db : Store) (pc pc' : Pc) : Prop
  | rest : pc' = .idle → Progress db pc pc'
  | select (now : Time) : pc = .idle → (∀ d ∈ pc'.batch, d ∈ due db now) →
      (pc'.batch.map WebhookDelivery.id).Nodup → pc'.handled = [] → pc'.current = none →
      Progress db pc pc'
  | advance : pc'.batch = pc.batch →
      (∀ o ∈ pc'.handled, (∃ o' ∈ pc.handled, o.loaded = o'.loaded ∧
        o.current = { o'.current with updatedAt := o.current.updatedAt }) ∨ Handled o) →
      (∀ o ∈ pc'.current, o.current = o.loaded.attempted) → Progress db pc pc'

/-- A new object of the session is handled. -/
private theorem handled_push {ses : Session} {d d' : WebhookDelivery} (hout : Outcome d d') :
    ∀ o ∈ (ses.push ⟨d, d'⟩).objs, o ∈ ses.objs ∨ Handled o := by
  intro o ho
  rcases List.mem_append.mp ho with ho | ho
  · exact .inl ho
  · obtain rfl := List.mem_singleton.mp ho
    refine .inr ?_
    show Outcome d { d' with updatedAt := d.updatedAt }
    cases hout with
    | cancelled error => exact .cancelled error
    | delivered code => exact .delivered code
    | failed code error hmax => exact .failed code error hmax
    | retry code error now hlt => exact .retry code error now hlt

/-- Looking up the message changes at most the stamps of the objects. -/
theorem getMessage_objs {db : Store} {ses ses' : Session} {collected : List String} {now : Time}
    {messageId : String} {message : Option Message}
    (h : getMessage db ses collected now messageId = some (ses', message)) :
    ses'.objs.map Tracked.loaded = ses.objs.map Tracked.loaded ∧
      ∀ o ∈ ses'.objs, ∃ o' ∈ ses.objs, o.loaded = o'.loaded ∧
        o.current = { o'.current with updatedAt := o.current.updatedAt } := by
  rcases getMessage_eq_some h with ⟨m, -, -, -, rfl⟩ | ⟨-, -, -, -, rfl⟩
  · exact ⟨rfl, fun o ho => ⟨o, ho, rfl, rfl⟩⟩
  · exact ⟨map_loaded_autoflush ses now, fun o ho => mem_autoflush ho⟩

/-- **The steps of the loop, seen from its rows and objects.** -/
theorem Trans.progress {lib : Lib} {env : Env} {db db' : Store} {pc pc' : Pc} {a : Act}
    (h : Trans lib env db pc a db' pc')
    (hcurrent : ∀ o ∈ pc.current, o.current = o.loaded.attempted) : Progress db pc pc' := by
  cases h with
  | selectNone | stale | commit | dbError => exact .rest rfl
  | @select now batch hbatch hne =>
    refine .select now rfl ?_ ?_ rfl rfl
    · simpa [Pc.batch, Session.fresh] using hbatch.mem_due
    · have hnd : (batch.map WebhookDelivery.id).Nodup :=
        List.Nodup.map_on (fun d hd d' hd' hid => Store.eq_of_deliveryId
          (List.mem_of_mem_filter (hbatch.mem_due d hd))
          (List.mem_of_mem_filter (hbatch.mem_due d' hd')) hid) hbatch.nodup
      simpa [Pc.batch, Session.fresh] using hnd
  | @get ses ses' d todo collected now message hget =>
    -- the lookup keeps the objects; then the delivery is cancelled, or gets its request
    obtain ⟨hloaded, hobjs⟩ := getMessage_objs hget
    rcases handle_cases lib env ses' d message todo with
      ⟨hidle, -⟩ | ⟨d', hout, -, hnext⟩ | ⟨m, request, -, hready⟩
    · exact .rest hidle
    · rw [hnext]
      refine .advance ?_ (fun o ho => ?_) (fun o ho => by cases ho)
      · simp [Pc.batch, Session.push, hloaded]
      · exact (handled_push hout o ho).imp_left (hobjs o)
    · rw [hready]
      refine .advance ?_ (fun o ho => .inl (hobjs o ho)) (fun o ho => ?_)
      · simp [Pc.batch, hloaded]
      · cases ho
        rfl
  | post => exact .advance rfl (fun o ho => .inl ⟨o, ho, rfl, rfl⟩) hcurrent
  | @posted ses o request todo reply now =>
    unfold afterPost
    split
    · exact .rest rfl
    · next c hconclude =>
      -- the delivery is pushed with the outcome of its attempt
      rw [hcurrent o rfl] at hconclude
      refine .advance ?_ (fun o' ho' => ?_) (fun o' ho' => by cases ho')
      · simp [Pc.batch, Session.conclude, Session.push]
      · exact (handled_push (outcome_conclude hconclude) o' ho').imp_left
          fun hmem => ⟨o', hmem, rfl, rfl⟩

/-- After its commit the loop holds nothing. -/
theorem Trans.commit_idle {lib : Lib} {env : Env} {db db' : Store} {pc pc' : Pc} {now : Time}
    (h : Trans lib env db pc (.commit now) db' pc') : pc' = .idle := by
  cases h
  rfl

/-- A stamp does not change that an object is handled. -/
theorem Handled.stamp {o o' : Tracked WebhookDelivery} (h : Handled o')
    (hloaded : o.loaded = o'.loaded)
    (hcur : o.current = { o'.current with updatedAt := o.current.updatedAt }) : Handled o := by
  have hout : Outcome o'.loaded { o'.current with updatedAt := o'.loaded.updatedAt } := h
  show Outcome o.loaded { o.current with updatedAt := o.loaded.updatedAt }
  rw [hcur, hloaded]
  exact hout

end FanoutLoop

section
variable {lib : Lib} {cfg : Settings} {s t : Sys} {a : Action}

/-- The deliveries of the next state. -/
private theorem FanInv.row_step (hi : FanInv s) (hfresh : Fresh s a) (h : Trans lib cfg s a t) :
    ∀ d ∈ t.db.deliveries, t.DeliverySettled d.id ∧ DeliveryRow d := by
  intro d hd
  cases deliveries_origin hi h hd with
  | kept hold _ => exact ⟨(hi.row d hold).1.step hfresh h, (hi.row d hold).2⟩
  | @committed now ses o ha hpc ho hold heq =>
    -- the object has the id of its row, and is an outcome of it
    have hhandled := hi.handled o (by rw [hpc]; exact ho)
    have hbatch : o.loaded ∈ s.fanout.batch := by
      rw [hpc]
      exact List.mem_append_left _ (List.mem_map_of_mem ho)
    have hid : d.id = o.loaded.id := by
      rw [heq]
      exact WebhookDelivery.id_eq_of_content hhandled.content
    rw [hid]
    exact ⟨(hi.row o.loaded hold).1.step hfresh h,
      deliveryRow_of_handled hhandled (hi.standing _ hbatch).2.2 heq⟩
  | @inserted call now ha hcall hnil =>
    obtain ⟨hused, hs, hatt⟩ := hi.call_row call d hcall
    refine ⟨⟨by rw [used_step h]; exact List.mem_append_right _ hused, fun call' d' hd' hid => ?_⟩,
      ⟨fun _ => by rw [hatt]; decide, by rw [hatt]; decide⟩⟩
    rcases callDeliveries_step h hd' with hold | ⟨-, hnew, -⟩
    · -- the id was in the hands of this one call, which has let go of it
      obtain rfl := hi.call_unique call' call d' d hold hcall hid
      rw [hnil] at hd'
      cases hd'
    · exact hfresh.2 _ hnew (hid ▸ hused)

/-- The deliveries in the hands of the calls of the next state. -/
private theorem FanInv.call_step (hi : FanInv s) (hfresh : Fresh s a) (h : Trans lib cfg s a t) :
    (∀ call, ∀ d ∈ (t.inbounds call).deliveries,
      d.id ∈ t.used ∧ d.status = .pending ∧ d.attempts = 0) ∧
    ∀ call call' d d', d ∈ (t.inbounds call).deliveries → d' ∈ (t.inbounds call').deliveries →
      d.id = d'.id → call = call' := by
  constructor
  · intro call d hd
    rw [used_step h]
    rcases callDeliveries_step h hd with hold | ⟨-, hnew, hs, hatt⟩
    · obtain ⟨hused, hs, hatt⟩ := hi.call_row call d hold
      exact ⟨List.mem_append_right _ hused, hs, hatt⟩
    · exact ⟨List.mem_append_left _ hnew, hs, hatt⟩
  · intro call call' d d' hd hd' hid
    rcases callDeliveries_step h hd with hold | ⟨⟨b, hb⟩, hnew, -⟩ <;>
      rcases callDeliveries_step h hd' with hold' | ⟨⟨b', hb'⟩, hnew', -⟩
    · exact hi.call_unique call call' d d' hold hold' hid
    -- an id in the hands of a call is used, so it is not drawn again
    · exact absurd (hid ▸ (hi.call_row call d hold).1) (hfresh.2 _ hnew')
    · exact absurd (hid.symm ▸ (hi.call_row call' d' hold').1) (hfresh.2 _ hnew)
    · have heq := hb.symm.trans hb'
      injection heq

/-- The session of the next state, when the fan-out loop moves. -/
private theorem FanInv.session_step {b : FanoutLoop.Act} {db : Store} {pc : FanoutLoop.Pc}
    (hi : FanInv s) (hinv : Inv cfg s) (hfresh : Fresh s (.fanout b))
    (h : Trans lib cfg s (.fanout b) { s with db := db, fanout := pc })
    (hfan : FanoutLoop.Trans lib s.env s.db s.fanout b db pc) :
    (pc.batch.map WebhookDelivery.id).Nodup ∧
    (∀ d ∈ pc.batch, Standing { s with db := db, fanout := pc } d ∧ d.status = .pending ∧
      d.attempts < maxDeliveryAttempts) ∧
    (∀ o ∈ pc.handled, FanoutLoop.Handled o) ∧
    ∀ o ∈ pc.current, o.current = o.loaded.attempted := by
  -- no row of the session is deleted for good by a step of the loop itself
  have hstep : ∀ d ∈ pc.batch, Standing s d → Standing { s with db := db, fanout := pc } d := by
    intro d hd hst
    refine hst.step hi hfresh h fun now heq => ?_
    obtain rfl : b = .commit now := by injection heq
    rw [hfan.commit_idle] at hd
    cases hd
  cases hfan.progress hi.current with
  | rest hidle =>
    subst hidle
    exact ⟨List.nodup_nil, fun _ hd => (List.not_mem_nil hd).elim,
      fun _ ho => (List.not_mem_nil ho).elim, fun _ ho => by cases ho⟩
  | select now hpc hdue hnd hhandled hcurrent =>
    refine ⟨hnd, fun d hd => ?_, fun o ho => ?_, fun o ho => ?_⟩
    -- a selected row is in the database, and due
    · obtain ⟨hrow, hisDue⟩ := List.mem_filter.mp (hdue d hd)
      have hs : d.status = .pending := by
        simp only [FanoutLoop.isDue, Bool.and_eq_true, decide_eq_true_eq] at hisDue
        exact hisDue.1
      exact ⟨hstep d hd (hi.standing_self hinv hrow), hs, (hi.row d hrow).2.pending hs⟩
    · rw [hhandled] at ho
      cases ho
    · rw [hcurrent] at ho
      cases ho
  | advance hbatch hhandled hcurrent =>
    refine ⟨by rw [hbatch]; exact hi.nodup, fun d hd => ?_, fun o ho => ?_, hcurrent⟩
    · have hd' : d ∈ s.fanout.batch := by rwa [← hbatch]
      obtain ⟨hst, hs, hlt⟩ := hi.standing d hd'
      exact ⟨hstep d hd hst, hs, hlt⟩
    · rcases hhandled o ho with ⟨o', ho', hloaded, hcur⟩ | hnew
      · exact (hi.handled o' ho').stamp hloaded hcur
      · exact hnew

/-- **The fan-out invariant is kept by every step of every party.** -/
theorem fanInv_step (hi : FanInv s) (hinv : Inv cfg s) (hstep : Step lib cfg s a t) :
    FanInv t := by
  obtain ⟨hfresh, h⟩ := trans_of_step hstep
  obtain ⟨hcall, hunique⟩ := hi.call_step hfresh h
  have hrow := hi.row_step hfresh h
  -- The rows may change, the session does not
  have hother : t.fanout = s.fanout → (∀ now, a ≠ .fanout (.commit now)) → FanInv t :=
    fun hpc ha =>
      { row := hrow
        call_row := hcall
        call_unique := hunique
        nodup := by rw [hpc]; exact hi.nodup
        standing := fun d hd => by
          rw [hpc] at hd
          exact ⟨(hi.standing d hd).1.step hi hfresh h ha, (hi.standing d hd).2⟩
        handled := by rw [hpc]; exact hi.handled
        current := by rw [hpc]; exact hi.current }
  cases h with
  | @fanout b db pc hfan =>
    obtain ⟨hnd, hstanding, hhandled, hcurrent⟩ :=
      hi.session_step hinv hfresh (.fanout hfan) hfan
    exact ⟨hrow, hcall, hunique, hnd, hstanding, hhandled, hcurrent⟩
  | crash =>
    exact ⟨hrow, hcall, hunique, List.nodup_nil, fun _ hd => (List.not_mem_nil hd).elim,
      fun _ ho => (List.not_mem_nil ho).elim, fun _ ho => by cases ho⟩
  | send | status | prune | sendMessage | inbound | configure =>
    exact hother rfl fun _ h => by cases h

end

theorem fanInv_init (env : Env) : FanInv (Sys.init env) where
  row _ hd := (List.not_mem_nil hd).elim
  call_row _ _ hd := (List.not_mem_nil hd).elim
  call_unique _ _ _ _ hd := (List.not_mem_nil hd).elim
  nodup := List.nodup_nil
  standing _ hd := (List.not_mem_nil hd).elim
  handled _ ho := (List.not_mem_nil ho).elim
  current _ ho := by cases ho

/-- **The fan-out invariant holds in every reachable state.** -/
theorem fanInv_reachable {lib : Lib} {cfg : Settings} {env : Env} {t : Sys} {tr : List Action}
    (hrun : Run lib cfg (Sys.init env) tr t) : FanInv t :=
  hrun.traceInvariant (P := fun _ s => FanInv s) (fanInv_init env)
    fun _ _ _ _ hrun hi hstep => fanInv_step hi (inv_reachable hrun) hstep

/-- The rows of a batch other than the one in hand have other ids. -/
theorem ne_of_nodup_batch {l₁ l₂ : List WebhookDelivery} {d : WebhookDelivery}
    (h : ((l₁ ++ d :: l₂).map WebhookDelivery.id).Nodup) :
    (∀ r ∈ l₁, r.id ≠ d.id) ∧ ∀ r ∈ l₂, r.id ≠ d.id := by
  rw [List.map_append, List.map_cons, List.nodup_middle, List.nodup_cons, ← List.map_append] at h
  constructor <;> intro r hr hid
  · exact h.1 (hid ▸ List.mem_map_of_mem (List.mem_append_left _ hr))
  · exact h.1 (hid ▸ List.mem_map_of_mem (List.mem_append_right _ hr))

end SmsRelay
