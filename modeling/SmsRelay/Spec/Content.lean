import SmsRelay.Spec.Fanout

/-!
# What is never rewritten

The content of a message is fixed when its row is committed, and so is that of a
delivery.  Sessions hold older versions of rows, and a row can be gone while a session
still works on it, so the content is compared across all the moments of a run at which
somebody held the row.  A webhook request is built from nothing but content and
configuration.

## Key results

- `content_of_passed`: all versions of a message, at any moments of a run, say the same
- `content_immutable`: no step of any party rewrites the content of a message
- `retries_identical`: all attempts at a delivery post the same request
-/

namespace SmsRelay

open Transition

/-! ## The versions of a delivery -/

/-- Every committed delivery with the id of `d`, now or later, has the content of `d`. -/
structure Lineage (s : Sys) (d : WebhookDelivery) : Prop where
  settled : s.DeliverySettled d.id
  row : ∀ r ∈ s.db.deliveries, r.id = d.id → r.content = d.content

section
variable {lib : Lib} {cfg : Settings} {s t : Sys} {a : Action} {tr : List Action}
  {d r : WebhookDelivery}

theorem FanInv.lineage (hi : FanInv s) (hd : d ∈ s.db.deliveries) : Lineage s d where
  settled := (hi.row d hd).1
  row r hr hid := by rw [Store.eq_of_deliveryId hr hd hid]

theorem Lineage.step (hl : Lineage s d) (hi : FanInv s) (hstep : Step lib cfg s a t) :
    Lineage t d := by
  obtain ⟨hfresh, h⟩ := trans_of_step hstep
  refine ⟨hl.settled.step hfresh h, fun r hr hid => ?_⟩
  cases deliveries_origin hi h hr with
  | kept hold _ => exact hl.row r hold hid
  | @committed now ses o ha hpc ho hold heq =>
    -- the batch commits the object of a row that was there before
    have hcontent : r.content = o.loaded.content := by
      rw [heq]
      exact (hi.handled o (by rw [hpc]; exact ho)).content
    rw [hcontent]
    exact hl.row o.loaded hold ((WebhookDelivery.id_eq_of_content hcontent).symm.trans hid)
  | inserted _ hcall _ => exact absurd hid (hl.settled.2 _ r hcall)

/-- Two committed versions of a delivery, at two moments of a run, have one content. -/
theorem delivery_content_run {env : Env} {tr₀ : List Action}
    (hrun₀ : Run lib cfg (Sys.init env) tr₀ s) (hrun : Run lib cfg s tr t)
    (hd : d ∈ s.db.deliveries) (hr : r ∈ t.db.deliveries) (hid : r.id = d.id) :
    r.content = d.content := by
  have hboth : Inv cfg t ∧ FanInv t ∧ Lineage t d :=
    hrun.invariant (I := fun u => Inv cfg u ∧ FanInv u ∧ Lineage u d)
      (fun _ _ _ hu hstep => ⟨inv_step hu.1 hstep, fanInv_step hu.2.1 hu.1 hstep,
        hu.2.2.step hu.2.1 hstep⟩)
      ⟨inv_reachable hrun₀, fanInv_reachable hrun₀, (fanInv_reachable hrun₀).lineage hd⟩
  exact hboth.2.2.row r hr hid

end

/-! ## What the fan-out loop holds -/

namespace FanoutLoop

/-- The messages the session of a program point can hand to `deliver`. -/
def Pc.messages : Pc → List Message
  | .idle => []
  | .next ses _ => ses.message.toList ++ ses.identity
  | .ready ses _ _ _ => ses.message.toList ++ ses.identity
  | .posting ses _ _ _ => ses.message.toList ++ ses.identity

/-- The request that is about to be posted or has just been, with its delivery. -/
def Pc.request : Pc → Option (WebhookDelivery × Webhooks.Request)
  | .ready _ o request _ => some (o.loaded, request)
  | .posting _ o request _ => some (o.loaded, request)
  | _ => none

/-- Where the loop goes once the message is looked up, and what request it has built. -/
theorem handle_holds (lib : Lib) (env : Env) (ses : Session) (d : WebhookDelivery)
    (message : Option Message) (todo : List WebhookDelivery) :
    (∀ m ∈ (handle lib env ses d message todo).messages,
      m ∈ ses.message.toList ++ ses.identity) ∧
    ∀ p ∈ (handle lib env ses d message todo).request, p.1 = d ∧ ∃ m subs sub,
      message = some m ∧ env.subscribers = .ok subs ∧ subscriberFor subs d = some sub ∧
        Webhooks.request lib sub d m = .ok p.2 := by
  -- Only a found message, under a readable configuration that names the subscriber,
  -- gives a request
  cases message with
  | none => exact ⟨fun m hm => hm, fun p hp => by cases hp⟩
  | some m =>
    simp only [handle]
    rcases prepare_cases lib env d m with
      ⟨-, e, hprep⟩ | ⟨subs, hsubs, ⟨-, hprep⟩ | ⟨sub, r, hsub, -, hrequest, hprep⟩⟩
    · rw [hprep]
      exact ⟨fun m hm => (by cases hm), fun p hp => (by cases hp)⟩
    · rw [hprep]
      exact ⟨fun m hm => hm, fun p hp => by cases hp⟩
    · rw [hprep]
      refine ⟨fun m hm => hm, fun p hp => ?_⟩
      obtain rfl : (d, r) = p := Option.some.inj hp
      exact ⟨rfl, m, subs, sub, rfl, hsubs, hsub, hrequest⟩

/-- The session after a lookup holds messages it held before, or the row it has read. -/
theorem getMessage_holds {db : Store} {ses ses' : Session} {collected : List String}
    {now : Time} {messageId : String} {message : Option Message}
    (h : getMessage db ses collected now messageId = some (ses', message)) :
    (∀ m ∈ ses'.message.toList ++ ses'.identity,
      m ∈ ses.message.toList ++ ses.identity ∨ m ∈ db.messages) ∧
    ∀ m, message = some m → m.id = messageId ∧ m ∈ ses'.message.toList ++ ses'.identity := by
  have hreach : ∀ m ∈ ses.reachable collected, m ∈ ses.message.toList ++ ses.identity := by
    intro m hm
    simp only [Session.reachable, List.mem_append, List.mem_filter] at hm ⊢
    exact hm.imp_right And.left
  -- `session.get` looks into the identity map first
  rcases getMessage_eq_some h with ⟨m, hm, hid, rfl, rfl⟩ | ⟨-, -, -, rfl, rfl⟩
  · -- the identity map has the message
    refine ⟨fun m' hm' => .inl (hreach m' ?_), fun m' hm' => ?_⟩
    · simp only [Session.hold, Option.toList_some, List.singleton_append, List.mem_cons] at hm'
      rcases hm' with rfl | hm'
      · exact hm
      · exact hm'
    · obtain rfl := Option.some.inj hm'
      exact ⟨hid, by simp [Session.hold]⟩
  · -- the message is read from the database
    refine ⟨fun m' hm' => ?_, fun m' hm' => ?_⟩
    · simp only [Session.hold, List.mem_append, Option.mem_toList] at hm'
      rcases hm' with hm' | hm'
      · exact .inr (Store.message?_eq_some.mp hm').1
      · exact .inl (hreach m' hm')
    · rw [hm']
      exact ⟨(Store.message?_eq_some.mp hm').2, by simp [Session.hold]⟩

end FanoutLoop

/-- Everything the fan-out loop holds was a committed row at some moment of the run. -/
structure Held (lib : Lib) (cfg : Settings) (env : Env) (tr : List Action) (s : Sys) : Prop where
  message : ∀ m ∈ s.fanout.messages,
    Run.Passed (Step lib cfg) (Sys.init env) tr fun u => m ∈ u.db.messages
  batch : ∀ d ∈ s.fanout.batch,
    Run.Passed (Step lib cfg) (Sys.init env) tr fun u => d ∈ u.db.deliveries

section
variable {lib : Lib} {cfg : Settings} {env : Env} {s t : Sys} {a : Action}
  {tr : List Action} {d d' : WebhookDelivery} {name : String} {sub : Subscriber}

/-- The messages the loop holds after one of its own steps. -/
theorem FanoutLoop.Trans.messages_held {db db' : Store} {pc pc' : FanoutLoop.Pc}
    {b : FanoutLoop.Act} (h : FanoutLoop.Trans lib env db pc b db' pc') :
    ∀ m ∈ pc'.messages, m ∈ pc.messages ∨ m ∈ db.messages := by
  intro m hm
  cases h with
  | selectNone | stale | commit | dbError | select => cases hm
  | get hget => exact (getMessage_holds hget).1 m ((handle_holds ..).1 m hm)
  | post => exact .inl hm
  | posted =>
    unfold afterPost at hm
    split at hm
    · cases hm
    · exact .inl hm

/-- What the loop holds after a step, it held before or has just read. -/
theorem Held.step (hh : Held lib cfg env tr s) (hrun : Run lib cfg (Sys.init env) tr s)
    (hstep : Step lib cfg s a t) : Held lib cfg env (tr ++ [a]) t := by
  obtain ⟨-, h⟩ := trans_of_step hstep
  -- The steps of the other loops and handlers leave the fan-out loop as it is
  have hother : t.fanout = s.fanout → Held lib cfg env (tr ++ [a]) t := fun hpc =>
    ⟨fun m hm => (hh.message m (by rwa [← hpc])).extend [a],
      fun d hd => (hh.batch d (by rwa [← hpc])).extend [a]⟩
  cases h with
  | fanout hfan =>
    refine ⟨fun m hm => ?_, fun d hd => ?_⟩
    · rcases hfan.messages_held m hm with hold | hread
      · exact (hh.message m hold).extend _
      · exact (Run.passed_last hrun hread).extend _
    · cases hfan.progress (fanInv_reachable hrun).current with
      | rest hidle =>
        rw [hidle] at hd
        cases hd
      | select now _ hdue =>
        have hread : d ∈ s.db.deliveries := List.mem_of_mem_filter (hdue d hd)
        exact (Run.passed_last hrun hread).extend _
      | advance hbatch =>
        replace hd : d ∈ s.fanout.batch := hbatch ▸ hd
        exact (hh.batch d hd).extend _
  | crash => exact ⟨fun m hm => (by cases hm), fun d hd => (by cases hd)⟩
  | send | status | prune | sendMessage | inbound | configure => exact hother rfl

theorem held_reachable (hrun : Run lib cfg (Sys.init env) tr t) : Held lib cfg env tr t :=
  hrun.traceInvariant (P := Held lib cfg env)
    ⟨fun _ hm => absurd hm List.not_mem_nil, fun _ hd => absurd hd List.not_mem_nil⟩
    fun _ _ _ _ hrun hh hstep => hh.step hrun hstep

/-- Two messages under one id that were committed at moments of one run say the same. -/
theorem content_of_passed {m m' : Message}
    (hm : Run.Passed (Step lib cfg) (Sys.init env) tr fun u => m ∈ u.db.messages)
    (hm' : Run.Passed (Step lib cfg) (Sys.init env) tr fun u => m' ∈ u.db.messages)
    (hid : m'.id = m.id) : m'.content = m.content := by
  rcases hm.total hm' with ⟨_, _, u, v, hu, hrun, hmu, hmv⟩ | ⟨_, _, u, v, hu, hrun, hmu, hmv⟩
  · exact (evolved_run (inv_reachable hu) hrun hmu hmv hid).frame
  · exact (evolved_run (inv_reachable hu) hrun hmu hmv hid.symm).frame.symm

/-- Two deliveries under one id that were committed at moments of one run agree on the
    columns no attempt writes. -/
theorem delivery_content_of_passed
    (hd : Run.Passed (Step lib cfg) (Sys.init env) tr fun u => d ∈ u.db.deliveries)
    (hd' : Run.Passed (Step lib cfg) (Sys.init env) tr fun u => d' ∈ u.db.deliveries)
    (hid : d'.id = d.id) : d'.content = d.content := by
  rcases hd.total hd' with ⟨_, _, u, v, hu, hrun, hdu, hdv⟩ | ⟨_, _, u, v, hu, hrun, hdu, hdv⟩
  · exact delivery_content_run hu hrun hdu hdv hid
  · exact (delivery_content_run hu hrun hdu hdv hid.symm).symm

/-! ## Attempts at one delivery -/

/-- Along the run `tr` from `s` the subscriber `name` is configured as `sub` whenever the
    configuration can be read. -/
def Unchanged (lib : Lib) (cfg : Settings) (s : Sys) (tr : List Action) (name : String)
    (sub : Subscriber) : Prop :=
  ∀ tr₁ tr₂ u subs, tr = tr₁ ++ tr₂ → Run lib cfg s tr₁ u → u.env.subscribers = .ok subs →
    (subs.find? fun x => x.name = PyStr.text name) = some sub

/-- Along the run `tr` from `s` the loop posts `request` for the delivery `d`. -/
def Posts (lib : Lib) (cfg : Settings) (s : Sys) (tr : List Action) (d : WebhookDelivery)
    (request : Webhooks.Request) : Prop :=
  ∃ tr₁ tr₂ u, tr = tr₁ ++ .fanout (.post d.id) :: tr₂ ∧ Run lib cfg s tr₁ u ∧
    u.fanout.request = some (d, request)

/-- The request for a delivery is built from its committed message and from the
    configuration read for this attempt. -/
def Built (lib : Lib) (cfg : Settings) (env : Env) (tr : List Action) (sub : Subscriber)
    (d : WebhookDelivery) (request : Webhooks.Request) : Prop :=
  ∃ m, m.id = d.messageId ∧ Webhooks.request lib sub d m = .ok request ∧
    Run.Passed (Step lib cfg) (Sys.init env) tr fun u => m ∈ u.db.messages

/-- A prepared request is built from the configuration that is not changed meanwhile. -/
theorem built_of_request {tr₀ : List Action} (hrun₀ : Run lib cfg (Sys.init env) tr₀ s)
    (hrun : Run lib cfg s tr t) (hconf : Unchanged lib cfg s tr name sub) {id : String}
    (hnone : ∀ p ∈ s.fanout.request, p.1.id ≠ id) :
    ∀ p ∈ t.fanout.request, p.1.id = id → p.1.subscriber = name →
      Built lib cfg env (tr₀ ++ tr) sub p.1 p.2 := by
  -- Induction on the run from `s`; only a lookup prepares a request
  induction hrun with
  | nil => exact fun p hp hid => absurd hid (hnone p hp)
  | @snoc tr u a t hrun hstep ih =>
    have hconf' : Unchanged lib cfg s tr name sub := fun tr₁ tr₂ v subs heq =>
      hconf tr₁ (tr₂ ++ [a]) v subs (by simp [heq])
    have hkeep : t.fanout.request = u.fanout.request → ∀ p ∈ t.fanout.request,
        p.1.id = id → p.1.subscriber = name → Built lib cfg env (tr₀ ++ (tr ++ [a])) sub p.1 p.2 :=
      fun hreq p hp hid hname => by
        obtain ⟨m, hm, hrequest, hpassed⟩ := ih hconf' p (by rwa [← hreq]) hid hname
        exact ⟨m, hm, hrequest, by rw [← List.append_assoc]; exact hpassed.extend [a]⟩
    obtain ⟨-, htrans⟩ := trans_of_step hstep
    cases htrans with
    | @fanout b db pc hfan =>
      generalize hpc : u.fanout = pc₀ at hfan
      cases hfan with
      | @get ses ses' d todo collected now message hget =>
        intro p hp hid hname
        obtain ⟨hd, m, subs, sub', hmessage, henv, hfind, hrequest⟩ :=
          (FanoutLoop.handle_holds lib u.env ses' d message todo).2 p hp
        obtain ⟨hmid, hmem⟩ := (FanoutLoop.getMessage_holds hget).2 m hmessage
        -- the subscriber found is the one that does not change
        have hfixed := hconf tr [.fanout (.get collected now)] u subs rfl hrun henv
        rw [← hname, hd] at hfixed
        rw [subscriberFor] at hfind
        obtain rfl : sub' = sub := Option.some.inj (hfind.symm.trans hfixed)
        refine ⟨m, by rw [hd]; exact hmid, by rw [hd]; exact hrequest, ?_⟩
        have hreach := hrun₀.append hrun
        rw [← List.append_assoc]
        rcases (FanoutLoop.getMessage_holds hget).1 m hmem with hold | hread
        · exact ((held_reachable hreach).message m (by rw [hpc]; exact hold)).extend _
        · exact (Run.passed_last hreach hread).extend _
      | post => exact hkeep (by rw [hpc]; rfl)
      | posted =>
        intro p hp
        unfold FanoutLoop.afterPost at hp
        split at hp <;> cases hp
      | selectNone | select | stale | commit | dbError => exact fun p hp => by cases hp
    | crash => exact fun p hp => by cases hp
    | send | status | prune | sendMessage | inbound | configure => exact hkeep rfl

/-- What is posted is for a committed delivery, and built from its committed message and the
    subscriber that does not change. -/
theorem posts_built {tr₀ : List Action} (hrun₀ : Run lib cfg (Sys.init env) tr₀ s)
    (hconf : Unchanged lib cfg s tr name sub) (hnone : ∀ p ∈ s.fanout.request, p.1.id ≠ d.id)
    {request : Webhooks.Request} (h : Posts lib cfg s tr d request) :
    (Run.Passed (Step lib cfg) (Sys.init env) (tr₀ ++ tr) fun u => d ∈ u.db.deliveries) ∧
      (d.subscriber = name → Built lib cfg env (tr₀ ++ tr) sub d request) := by
  obtain ⟨tr₁, tr₂, u, rfl, hu, hreq⟩ := h
  have hreach := hrun₀.append hu
  refine ⟨?_, fun hname => ?_⟩
  · have hbatch : d ∈ u.fanout.batch := by
      cases hpc : u.fanout <;> rw [hpc] at hreq <;> cases hreq <;>
        simp [FanoutLoop.Pc.batch]
    rw [← List.append_assoc]
    exact ((held_reachable hreach).batch d hbatch).extend _
  · obtain ⟨m, hm, hq, hpassed⟩ := built_of_request hrun₀ hu
      (fun tr₃ tr₄ v subs heq => hconf tr₃ (tr₄ ++ .fanout (.post d.id) :: tr₂) v subs
        (by simp [heq])) hnone (d, request) hreq rfl hname
    exact ⟨m, hm, hq, by rw [← List.append_assoc]; exact hpassed.extend _⟩

/-- **All attempts at a delivery post the same request**, as long as the subscriber's
    configuration does not change: same URL, same bytes, same headers. -/
theorem retries_identical {tr₀ : List Action} (hrun₀ : Run lib cfg (Sys.init env) tr₀ s)
    (hconf : Unchanged lib cfg s tr d.subscriber sub)
    (hnone : ∀ p ∈ s.fanout.request, p.1.id ≠ d.id) (hid : d'.id = d.id)
    {r r' : Webhooks.Request} (h : Posts lib cfg s tr d r) (h' : Posts lib cfg s tr d' r') :
    r' = r := by
  -- Each attempt works on rows that were committed, and on a request built from them
  obtain ⟨hpassed, hbuilt⟩ := posts_built hrun₀ hconf hnone h
  obtain ⟨hpassed', hbuilt'⟩ := posts_built hrun₀ hconf (by rwa [hid]) h'
  have hcontent := delivery_content_of_passed hpassed hpassed' hid
  simp only [WebhookDelivery.content, Prod.mk.injEq] at hcontent
  obtain ⟨-, hmessage, hsub, -⟩ := hcontent
  obtain ⟨m, hm, hr, hmpassed⟩ := hbuilt rfl
  obtain ⟨m', hm', hr', hmpassed'⟩ := hbuilt' hsub
  -- The payload only reads content of the message
  have hsame := content_of_passed hmpassed hmpassed' (by rw [hm, hm', hmessage])
  simp only [Message.content, Prod.mk.injEq] at hsame
  obtain ⟨hmid, -, hto, hfrom, hbody, -, -, -, -, hcreated⟩ := hsame
  simp only [Webhooks.request, Webhooks.payload, hid, hmid, hto, hfrom, hbody, hcreated] at hr hr'
  exact Except.ok.inj (hr'.symm.trans hr)

/-- **Content is immutable and retries are identical**, along every run: two versions of
    a committed row agree on id, direction, numbers, body, service, key, topic, priority
    and time of creation; and as long as a subscriber's configuration does not change,
    all attempts at one of its deliveries post one request, which is the one that
    `Webhooks.request` builds from the committed message: the bytes are those of its
    `_payload`, and the headers are the content type, the event, the id of the delivery and,
    with a secret, the signature of these bytes. -/
theorem content_immutable {tr₀ : List Action} (hrun₀ : Run lib cfg (Sys.init env) tr₀ s)
    (hrun : Run lib cfg s tr t) :
    (∀ m ∈ s.db.messages, ∀ r ∈ t.db.messages, r.id = m.id → r.content = m.content) ∧
    ∀ d d' sub r r', Unchanged lib cfg s tr d.subscriber sub →
      (∀ p ∈ s.fanout.request, p.1.id ≠ d.id) → d'.id = d.id →
      Posts lib cfg s tr d r → Posts lib cfg s tr d' r' →
      r' = r ∧ Built lib cfg env (tr₀ ++ tr) sub d r :=
  ⟨fun _ hm _ hr hid => (evolved_run (inv_reachable hrun₀) hrun hm hr hid).frame,
    fun _ _ _ _ _ hconf hnone hid h h' =>
      ⟨retries_identical hrun₀ hconf hnone hid h h', (posts_built hrun₀ hconf hnone h).2 rfl⟩⟩

/-- Without a reconfiguration the configuration stays what it is. -/
theorem unchanged_of_env (hconf : ∀ env', Action.configure env' ∉ tr)
    (hsub : ∀ subs, s.env.subscribers = .ok subs →
      (subs.find? fun x => x.name = PyStr.text name) = some sub) :
    Unchanged lib cfg s tr name sub := by
  rintro tr₁ tr₂ u subs rfl hrun hsubs
  -- The environment changes in no other step
  have henv : u.env = s.env := by
    clear hsubs
    induction hrun with
    | nil => rfl
    | @snoc tr v a u hrun hstep ih =>
      rw [← ih fun env' hmem => hconf env' (by simp at hmem ⊢; tauto)]
      cases (trans_of_step hstep).2 with
      | @configure env' => exact absurd (by simp) (hconf env')
      | send | status | fanout | prune | sendMessage | inbound | crash => rfl
  exact hsub subs (by rw [← henv, hsubs])

end

namespace Sample

/-- The first attempt at a delivery is rejected. -/
def attempt : List Action :=
  [.fanout (.select 1 ["d1"])] ++ postDelivery "d1" 1 ++
    [webhookReply "d1" 500 1, .fanout (.commit 1)]

/-- After a restart the delivery is selected again and looked up. -/
def attemptAgain : List Action :=
  [.crash, .fanout (.select (seconds 60) ["d1"]), .fanout (.get [] (seconds 60))]

/-- The delivery that the loop has a request for: its id, subscriber and past attempts. -/
def inHand (s : Sys) : Option (String × String × Nat) :=
  s.fanout.request.map fun p => (p.1.id, p.1.subscriber, p.1.attempts)

/-- A replay that reaches a `POST` shows what is posted. -/
theorem posts_of_exec {s : Sys} {tr₀ : List Action} {k : Nat} (tr₁ tr₂ : List Action)
    (hs : Run lib cfg (Sys.init subscribed) tr₀ s)
    (h : (exec (step lib cfg) (Sys.init subscribed) (tr₀ ++ tr₁)).map inHand =
      some (some ("d1", "app", k))) :
    ∃ d r, d.id = "d1" ∧ d.subscriber = "app" ∧ d.attempts = k ∧
      Posts lib cfg s (tr₁ ++ .fanout (.post "d1") :: tr₂) d r := by
  obtain ⟨u, hu, hhand⟩ := run_of_exec_map h
  have hrun := run_rest hu hs
  obtain ⟨⟨d, r⟩, hreq, hd⟩ := Option.map_eq_some_iff.mp hhand
  simp only [Prod.mk.injEq] at hd
  obtain ⟨hid, hsub, hatt⟩ := hd
  exact ⟨d, r, hid, hsub, hatt, tr₁, tr₂, u, by rw [hid], hrun, hreq⟩

/-- Both attempts, with a restart in between. -/
def attempts : List Action := attempt ++ attemptAgain ++ [.fanout (.post "d1")]

/-- The committed messages, the subscribers, and whether the loop has a request to post. -/
def glance (s : Sys) : List String × Option (List Subscriber) × Bool :=
  (s.db.messages.map Message.id, s.env.subscribers.toOption, s.fanout.request.isSome)

end Sample

/-- Two attempts with a restart in between. -/
theorem content_immutable_retried : ∃ s t,
    Run Sample.lib Sample.cfg (Sys.init Sample.subscribed) (Sample.receive 0 "e1" "m1" "d1" 1) s ∧
    Run Sample.lib Sample.cfg s Sample.attempts t ∧
    s.db.messages.map Message.id = ["m1"] ∧ t.db.messages.map Message.id = ["m1"] ∧
    (∀ m ∈ s.db.messages, ∀ r ∈ t.db.messages, r.id = m.id → r.content = m.content) ∧
    ∃ d d' r r', d.attempts = 0 ∧ d'.attempts = 1 ∧ r' = r ∧
      Posts Sample.lib Sample.cfg s Sample.attempts d r ∧
      Posts Sample.lib Sample.cfg s Sample.attempts d' r' := by
  obtain ⟨s, t, hs, hrun, hms, hmt⟩ : ∃ s t,
      Run Sample.lib Sample.cfg (Sys.init Sample.subscribed)
        (Sample.receive 0 "e1" "m1" "d1" 1) s ∧
      Run Sample.lib Sample.cfg s Sample.attempts t ∧
      Sample.glance s = (["m1"], Sample.subscribed.subscribers.toOption, false) ∧
      Sample.glance t = (["m1"], Sample.subscribed.subscribers.toOption, true) :=
    run_of_exec_map₂ (by decide +kernel) (by decide +kernel)
  obtain ⟨hids, henv, hnone⟩ := by simpa only [Sample.glance, Prod.mk.injEq] using hms
  obtain ⟨hcontent, hretries⟩ := content_immutable hs hrun
  -- The two moments right before a `POST`
  obtain ⟨d, r, hid, hsub, hatt, hpost⟩ := Sample.posts_of_exec (k := 0)
    [.fanout (.select 1 ["d1"]), .fanout (.get [] 1)]
    ([Sample.webhookReply "d1" 500 1, .fanout (.commit 1)] ++ Sample.attemptAgain ++
      [.fanout (.post "d1")]) hs (by decide +kernel)
  obtain ⟨d', r', hid', -, hatt', hpost'⟩ := Sample.posts_of_exec (k := 1)
    (Sample.attempt ++ Sample.attemptAgain) [] hs (by decide +kernel)
  have hconf : Unchanged Sample.lib Sample.cfg s Sample.attempts d.subscriber
      ⟨"app", "http://app", "", ["message.received"]⟩ := by
    refine unchanged_of_env (fun env' => ?_) fun subs hsubs => ?_
    · simp [Sample.attempts, Sample.attempt, Sample.attemptAgain, Sample.postDelivery,
        Sample.webhookReply]
    · rw [hsubs] at henv
      obtain rfl : subs = _ := Option.some.inj henv
      rw [hsub]
      rfl
  refine ⟨s, t, hs, hrun, hids, (Prod.mk.inj hmt).1, hcontent, d, d', r, r', hatt, hatt', ?_,
    hpost, hpost'⟩
  refine (hretries d d' _ r r' hconf (fun p hp => ?_) (hid'.trans hid.symm) hpost hpost').1
  rw [Option.mem_def.mp hp] at hnone
  cases hnone

end SmsRelay
