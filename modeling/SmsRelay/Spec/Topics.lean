import SmsRelay.ForStd.Except
import SmsRelay.Spec.Channel

/-!
# Who reads a publication

An ntfy topic is read by the person a route was set up for.  `topic_for` decides once,
when `send_message` builds a row, whether the row may go there; `publish` only reads the
row back, after any number of restarts and however the routes have changed since.

## Key results

- `routed_of_topicFor`: what a route must say for `topic_for` to return its topic
- `born_reachable`: every outbound row was built by some `send_message`
- `publish_routed`: what is published goes to the topic its owner's route had
-/

namespace SmsRelay

open Transition

/-! ## Routes -/

/-- The service has a route to `topic` for texts like `body` to `recipient`. -/
structure Routed (lib : Lib) (cfg : Settings) (env : Env) (service recipient body topic : String)
    (route : List (String × Json)) : Prop where
  configured : Json.lookup env.notificationRoutes service = some (.obj route)
  recipient : ∃ raw, Json.lookup route "to" = some raw ∧ normalize lib cfg raw = .ok recipient
  pattern : (Json.get route "bodyPattern").truthy = true →
    ∃ p, Json.get route "bodyPattern" = .str p ∧ lib.reSearch p body = .ok true
  wellFormed : isTopic topic = true
  topic : Json.lookup route "topic" = some (.str topic)

variable {lib : Lib} {cfg : Settings} {env : Env}

/-- A pattern that does not rule the body out is absent or matches it. -/
theorem pattern_of_not_rejects {pattern : Json} {body : String}
    (h : patternRejects lib pattern body = .ok false) (htruthy : pattern.truthy = true) :
    ∃ p, pattern = .str p ∧ lib.reSearch p body = .ok true := by
  unfold patternRejects at h
  rw [if_pos htruthy] at h
  split at h
  · next p =>
    cases hfound : lib.reSearch p body with
    | error e => simp [hfound, Except.map] at h
    | ok found => exact ⟨p, rfl, by simpa [hfound, Except.map] using h⟩
  · cases h

/-- A checked topic is the route's own, and well formed. -/
theorem checkedTopic_eq_ok {t : Json} {topic : String} (h : checkedTopic t = .ok (some topic)) :
    t = .str topic ∧ isTopic topic = true := by
  unfold checkedTopic at h
  split at h
  · split at h
    · next htopic =>
      obtain rfl := Option.some.inj (Except.ok.inj h)
      exact ⟨rfl, htopic⟩
    · cases h
  · cases h

/-- **`topic_for` only returns the topic of a route that is for this text.** -/
theorem routed_of_topicFor {service recipient body topic : String}
    (h : topicFor lib cfg env service recipient body = .ok (some topic)) :
    ∃ route, Routed lib cfg env service recipient body topic route := by
  unfold topicFor at h
  dsimp only at h
  split at h
  · cases h
  · next hroute =>
    -- Peel off the steps of the block one after another
    obtain ⟨raw, hto, hrest⟩ := Except.bind_eq_ok.mp h
    obtain ⟨owner, howner, hmatch⟩ := Except.bind_eq_ok.mp hrest
    split at hmatch
    · cases hmatch
    · next hsame =>
      obtain rfl : owner = recipient := not_not.mp hsame
      cases hlookup : Json.lookup env.notificationRoutes service with
      | none => simp [hlookup, Json.truthy] at hroute
      | some route =>
        rw [hlookup, Option.getD_some] at hto hmatch
        cases route with
        | obj items =>
          obtain ⟨rejects, hrejects, htail⟩ := Except.bind_eq_ok.mp hmatch
          split at htail
          · cases htail
          · next hpass =>
            obtain rfl : rejects = false := by simpa using hpass
            obtain ⟨htopic, hwf⟩ := checkedTopic_eq_ok htail
            refine ⟨items, hlookup, ⟨raw, ?_, howner⟩, pattern_of_not_rejects hrejects, hwf, ?_⟩
            · unfold subscript at hto
              dsimp only at hto
              split at hto
              · next x hx =>
                rw [hx]
                exact congrArg some (Except.ok.inj hto)
              · cases hto
            · cases hstored : Json.lookup items "topic" with
              | none =>
                -- the empty default is no well-formed topic
                rw [hstored] at htopic
                obtain rfl : "" = topic := by simpa using htopic
                exact absurd hwf (by decide)
              | some t =>
                rw [hstored] at htopic
                rw [show t = .str topic from htopic]
        | _ => simp [subscript] at hto

/-! ## Where outbound rows come from -/

/-- Along the run `tr` a call of `send_message` built the row `r`, under the routes the
    relay had then. -/
def Born (lib : Lib) (cfg : Settings) (env : Env) (tr : List Action) (r : Message) : Prop :=
  ∃ tr₁ tr₂ u call uuids now request normalized id toNumber topic,
    tr = tr₁ ++ .sendMessage call (.create uuids now) :: tr₂ ∧
    Run lib cfg (Sys.init env) tr₁ u ∧
    u.sendMessages call = .creating r.service request normalized ∧
    id ∈ uuids ∧ topicFor lib cfg u.env r.service toNumber request.body = .ok topic ∧
    r = SendMessage.newMessage r.service request id toNumber topic now

theorem Born.extend {tr : List Action} {r : Message} (h : Born lib cfg env tr r)
    (tr' : List Action) : Born lib cfg env (tr ++ tr') r := by
  obtain ⟨tr₁, tr₂, u, call, uuids, now, request, normalized, id, toNumber, topic, rfl, hrest⟩ := h
  exact ⟨tr₁, tr₂ ++ tr', u, call, uuids, now, request, normalized, id, toNumber, topic,
    by simp, hrest⟩

/-- A call comes to hold rows only by building them. -/
theorem SendMessage.Trans.rows_built {db db' : Store} {pc pc' : SendMessage.Pc}
    {a : SendMessage.Act} (h : SendMessage.Trans lib cfg env db pc a db' pc') {r : Message}
    (hr : r ∈ pc'.rows) : ∃ service request normalized uuids now,
      pc = .creating service request normalized ∧ a = .create uuids now ∧
      ∃ id toNumber topic, id ∈ uuids ∧
        topicFor lib cfg env service toNumber request.body = .ok topic ∧
        r = newMessage service request id toNumber topic now := by
  -- `create` is the only step that puts rows in hand
  cases h with
  | @create service request normalized uuids now rows hlen hcreated =>
    obtain ⟨hids, hmem⟩ := mem_created hcreated
    obtain ⟨id, toNumber, topic, htopic, rfl⟩ := hmem r hr
    refine ⟨service, request, normalized, uuids, now, rfl, rfl, id, toNumber, topic, ?_, htopic,
      rfl⟩
    rw [List.map_fst_zip (Nat.le_of_eq hlen)] at hids
    rw [← hids]
    exact List.mem_map_of_mem hr
  | begin =>
    split at hr <;> cases hr
  | lookup =>
    rw [afterLookup_rows] at hr
    cases hr
  | recover =>
    rw [afterRecovery_rows] at hr
    cases hr
  | refuse | topicRaises | commit | integrityError | dbError => cases hr

/-- Every outbound row, and every row a call of `send_message` is about to commit, was
    built along the run, and says what it said then. -/
structure AllBorn (lib : Lib) (cfg : Settings) (env : Env) (tr : List Action) (s : Sys) :
    Prop where
  row : ∀ m ∈ s.db.messages, m.direction = .outbound →
    ∃ r, Born lib cfg env tr r ∧ m.content = r.content
  call : ∀ call, ∀ r ∈ (s.sendMessages call).rows, Born lib cfg env tr r

theorem allBorn_step {tr : List Action} {s t : Sys} {a : Action}
    (hb : AllBorn lib cfg env tr s) (hrun : Run lib cfg (Sys.init env) tr s)
    (hstep : Step lib cfg s a t) : AllBorn lib cfg env (tr ++ [a]) t := by
  obtain ⟨-, h⟩ := trans_of_step hstep
  have hi := inv_reachable hrun
  refine ⟨fun m hm hdir => ?_, fun call r hr => ?_⟩
  · rcases rows_evolved hi h hm with ⟨r₀, hr₀, hevolved, -⟩ | ⟨c, -, hrow⟩
    · have hdir₀ := (Message.direction_eq_of_content hevolved.frame).symm.trans hdir
      obtain ⟨r, hr, hcontent⟩ := hb.row r₀ hr₀ hdir₀
      exact ⟨r, hr.extend [a], hevolved.frame.trans hcontent⟩
    · cases c with
      | inl call => exact ⟨m, (hb.call call m hrow).extend [a], rfl⟩
      | inr call =>
        -- calls of `android_gateway_inbound` commit inbound rows
        rw [(hi.call_row _ m hrow).1.2.1] at hdir
        cases hdir
  · cases h.sendMessage_step call with
    | other _ hpc => exact (hb.call call r (hpc ▸ hr)).extend _
    | crash hpc => simp [hpc] at hr
    | own h =>
      -- the call has just built the row
      obtain ⟨service, request, normalized, uuids, now, hpc, rfl, id, toNumber, topic, hid,
        htopic, rfl⟩ := h.rows_built hr
      exact ⟨tr, [], s, call, uuids, now, request, normalized, id, toNumber, topic, rfl, hrun,
        hpc, hid, htopic, rfl⟩

theorem born_reachable {tr : List Action} {t : Sys} (hrun : Run lib cfg (Sys.init env) tr t) :
    AllBorn lib cfg env tr t :=
  hrun.traceInvariant (P := AllBorn lib cfg env)
    ⟨fun _ hm => absurd hm List.not_mem_nil, fun _ _ hr => absurd hr List.not_mem_nil⟩
    fun _ _ _ _ hrun hb hstep => allBorn_step hb hrun hstep

/-! ## Publications -/

/-- What the send loop has in hand when it calls `publish`. -/
theorem publish_hand {s t : Sys} {id : String} (hi : Inv cfg s)
    (hstep : Step lib cfg s (.send (.publish id)) t) :
    ∃ m, s.send = .toPublish m ∧ m.id = id ∧ m ∈ s.db.messages ∧ m.status = .sending ∧
      m.transport = .ntfy := by
  obtain ⟨-, htrans⟩ := trans_of_step hstep
  have hsend := hi.send
  cases htrans with
  | send h =>
    generalize s.send = pc at h hsend
    cases h with
    | @publish m => exact ⟨m, rfl, rfl, hsend⟩

/-- **ntfy never carries someone else's text.**  Whenever `publish` is called along a run,
    its message was built at an earlier step, and at that step the message's own service
    had a route to the topic it is posted to, for texts like the message's body to the
    message's recipient. -/
theorem publish_routed {tr tr₁ tr₂ : List Action} {t : Sys} {id : String}
    (hrun : Run lib cfg (Sys.init env) tr t) (htr : tr = tr₁ ++ .send (.publish id) :: tr₂) :
    ∃ s m topic recipient, Run lib cfg (Sys.init env) tr₁ s ∧ s.send = .toPublish m ∧
      m.id = id ∧ subscript (publication m) "topic" = .ok (.str topic) ∧
      m.toNumber = some recipient ∧
      ∃ tr₀ tr₃ u call uuids now request normalized route,
        tr₁ = tr₀ ++ .sendMessage call (.create uuids now) :: tr₃ ∧
        Run lib cfg (Sys.init env) tr₀ u ∧ m.id ∈ uuids ∧ m.createdAt = now ∧
        u.sendMessages call = .creating m.service request normalized ∧ m.body = request.body ∧
        Routed lib cfg u.env m.service recipient m.body topic route := by
  subst htr
  obtain ⟨s, hs, hrest⟩ := hrun.split
  obtain ⟨v, hstep, -⟩ := hrest.cons_inv
  have hi := inv_reachable hs
  obtain ⟨m, hpc, hid, hm, hstatus, htransport⟩ := publish_hand hi hstep
  -- The row is for ntfy, so it has a topic
  have hrow := (hi.row m hm).1
  obtain ⟨topic, htopic⟩ : ∃ topic, m.notificationTopic = some topic := by
    cases htopic : m.notificationTopic with
    | some topic => exact ⟨topic, rfl⟩
    | none =>
      rw [hrow.sms.mpr htopic] at htransport
      cases htransport
  -- The content of the row is what some call built
  have houtbound := (hrow.pending (.inr hstatus)).1
  obtain ⟨r, ⟨tr₀, tr₃, u, call, uuids, now, request, normalized, id', recipient, topic', htr, hu,
    hcall, hmem, hfor, hr⟩, hcontent⟩ := (born_reachable hs).row m hm houtbound
  rw [hr] at hcontent
  simp only [Message.content, SendMessage.newMessage, Prod.mk.injEq] at hcontent
  obtain ⟨hmid, -, hto, -, hbody, hservice, -, htopic', -, hcreated⟩ := hcontent
  obtain rfl : topic' = some topic := htopic'.symm.trans htopic
  rw [← hservice] at hcall hfor
  rw [← hbody] at hfor
  obtain ⟨route, hrouted⟩ := routed_of_topicFor hfor
  have hposted : subscript (publication m) "topic" = .ok (.str topic) := by
    simp [publication, subscript, Json.lookup, htopic]
  exact ⟨s, m, topic, recipient, hs, hpc, hid, hposted, hto, tr₀, tr₃, u, call, uuids, now, request,
    normalized, route, htr, hu, hmid ▸ hmem, hcreated, hcall, hbody, hrouted⟩

/-- A publication in the sample deployment, whose route is removed before the call. -/
theorem publish_routed_removed : ∃ tr₁ t, Run Sample.lib Sample.ntfyCfg (Sys.init Sample.ntfyEnv)
      (tr₁ ++ [.send (.publish "m1")]) t ∧ Action.configure Sample.env ∈ tr₁ ∧
    ∃ s m topic recipient, Run Sample.lib Sample.ntfyCfg (Sys.init Sample.ntfyEnv) tr₁ s ∧
      s.send = .toPublish m ∧ m.id = "m1" ∧ subscript (publication m) "topic" = .ok (.str topic) ∧
      m.toNumber = some recipient ∧
      ∃ tr₀ tr₃ u call uuids now request normalized route,
        tr₁ = tr₀ ++ .sendMessage call (.create uuids now) :: tr₃ ∧
        Run Sample.lib Sample.ntfyCfg (Sys.init Sample.ntfyEnv) tr₀ u ∧ m.id ∈ uuids ∧
        m.createdAt = now ∧ u.sendMessages call = .creating m.service request normalized ∧
        m.body = request.body ∧
        Routed Sample.lib Sample.ntfyCfg u.env m.service recipient m.body topic route := by
  obtain ⟨t, ht⟩ : ∃ t, exec (step Sample.lib Sample.ntfyCfg) (Sys.init Sample.ntfyEnv)
      (Sample.queue "m1" 0 ++ [.configure Sample.env, .send (.requeueSelect 1 1),
        .send (.claimSelect 1 (some "m1")), .send (.commit 1)] ++ [.send (.publish "m1")]) =
      some t := Option.isSome_iff_exists.mp (by decide +kernel)
  have hrun := run_of_exec ht
  exact ⟨_, t, hrun, by simp [Sample.queue], publish_routed hrun rfl⟩

end SmsRelay
