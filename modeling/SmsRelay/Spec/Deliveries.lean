import SmsRelay.Spec.Isolation

/-!
# The life of a delivery

A delivery is attempted until it is acknowledged, until it has failed six times or until
its subscriber is no longer configured.  Each column of its row goes back to something that
happened: its error and its status code to an answer of the subscriber, its end to an
acknowledgement, to the sixth refusal or to a configuration without the subscriber.

## Key results

- `deliveries_recorded`: the rows are justified in every reachable state
- `Over.run`: a delivery that is over is never written or posted again
- `deliveries_accounted`: both, and no delivery is lost while its message is stored
-/

namespace SmsRelay

open UnitOfWork Transition Webhooks

/-! ## What a row says about the run -/

/-- The `POST` of the delivery came to `reply`. -/
def Heard (tr : List Action) (id : String) (reply : HttpReply) : Prop :=
  ∃ now, Action.fanout (.posted id reply now) ∈ tr

/-- How many answers for the delivery were heard. -/
def answers (id : String) (tr : List Action) : Nat :=
  tr.countP fun
    | .fanout (.posted id' _ _) => id' = id
    | _ => false

/-- The text recorded for an answer, if it is one that is recorded as an error. -/
def errorText : HttpReply → Option String
  | .ok response =>
    if response.statusCode < 300 then none
    else response.text.bind fun text =>
      PyStr.encode ("HTTP " ++ toString response.statusCode ++ ": " ++ text.sliceTo 200)
  | .error (.httpError exc) => (exc.sliceTo 500).encode
  | .error _ => none

/-- The error of the row is what one of its attempts came to. -/
def Refused (tr : List Action) (d : WebhookDelivery) : Prop :=
  ∃ reply text, Heard tr d.id reply ∧ errorText reply = some text ∧ d.error = some text

/-- At some moment of the run the configuration could be read and had no such subscriber. -/
def Unsubscribed (lib : Lib) (cfg : Settings) (env : Env) (tr : List Action) (name : String) :
    Prop :=
  Run.Passed (Step lib cfg) (Sys.init env) tr fun u =>
    ∃ subs, u.env.subscribers = .ok subs ∧ ∀ sub ∈ subs, sub.name ≠ PyStr.text name

/-- Everything the row says is backed by the run. -/
structure DeliveryRecord (lib : Lib) (cfg : Settings) (env : Env) (tr : List Action)
    (d : WebhookDelivery) : Prop where
  attempts : d.attempts ≤ maxDeliveryAttempts
  /-- Each attempt has had its own answer. -/
  answered : d.attempts ≤ answers d.id tr
  untried : d.attempts = 0 → d.responseCode = none
  code : ∀ code, d.responseCode = some code →
    ∃ response, Heard tr d.id (.ok response) ∧ response.statusCode = code
  pending : d.status = .pending → d.attempts < maxDeliveryAttempts ∧ d.nextAttemptAt.isSome ∧
    (d.attempts = 0 ∧ d.error = none ∨ 0 < d.attempts ∧ Refused tr d)
  delivered : d.status = .delivered → 0 < d.attempts ∧ d.error = none ∧
    ∃ response, Heard tr d.id (.ok response) ∧ response.statusCode < 300 ∧
      d.responseCode = some response.statusCode
  failed : d.status = .failed → d.attempts = maxDeliveryAttempts ∧ Refused tr d
  cancelled : d.status = .cancelled → d.attempts < maxDeliveryAttempts ∧
    d.error = some "subscriber no longer configured" ∧ Unsubscribed lib cfg env tr d.subscriber

section
variable {lib : Lib} {cfg : Settings} {env : Env} {tr : List Action} {d d' : WebhookDelivery}
  {reply : HttpReply} {now : Time}

@[simp] theorem answers_append (id : String) (tr tr' : List Action) :
    answers id (tr ++ tr') = answers id tr + answers id tr' := by
  simp [answers, List.countP_append]

/-- An answer heard counts. -/
theorem answers_posted (id : String) (tr : List Action) (reply : HttpReply) (now : Time) :
    answers id (tr ++ [.fanout (.posted id reply now)]) = answers id tr + 1 := by
  simp [answers, List.countP_append]

theorem Heard.extend {id : String} (h : Heard tr id reply) (tr' : List Action) :
    Heard (tr ++ tr') id reply := by
  obtain ⟨now, hmem⟩ := h
  exact ⟨now, List.mem_append_left _ hmem⟩

theorem Refused.extend (h : Refused tr d) (tr' : List Action) : Refused (tr ++ tr') d := by
  obtain ⟨reply, text, hheard, htext, herror⟩ := h
  exact ⟨reply, text, hheard.extend tr', htext, herror⟩

/-- A longer run backs what a shorter one did. -/
theorem DeliveryRecord.extend (h : DeliveryRecord lib cfg env tr d) (tr' : List Action) :
    DeliveryRecord lib cfg env (tr ++ tr') d where
  attempts := h.attempts
  answered := by
    rw [answers_append]
    exact Nat.le_add_right_of_le h.answered
  untried := h.untried
  code := fun code hcode => by
    obtain ⟨response, hheard, hstatus⟩ := h.code code hcode
    exact ⟨response, hheard.extend tr', hstatus⟩
  pending := fun hs => by
    obtain ⟨hlt, hnext, herror⟩ := h.pending hs
    exact ⟨hlt, hnext, herror.imp_right fun hold => ⟨hold.1, hold.2.extend tr'⟩⟩
  delivered := fun hs => by
    obtain ⟨hpos, herror, response, hheard, hrest⟩ := h.delivered hs
    exact ⟨hpos, herror, response, hheard.extend tr', hrest⟩
  failed := fun hs => ⟨(h.failed hs).1, (h.failed hs).2.extend tr'⟩
  cancelled := fun hs => by
    obtain ⟨hlt, herror, hunsubscribed⟩ := h.cancelled hs
    exact ⟨hlt, herror, Run.Passed.extend hunsubscribed tr'⟩

/-- The stamp of an `UPDATE` says nothing about the run. -/
theorem DeliveryRecord.stamp (h : DeliveryRecord lib cfg env tr d) (t : Time) :
    DeliveryRecord lib cfg env tr { d with updatedAt := t } :=
  ⟨h.attempts, h.answered, h.untried, h.code, h.pending, h.delivered, h.failed, h.cancelled⟩

/-- A row that `enqueue_fanout` has just made says nothing yet. -/
theorem record_newDelivery (messageId id name url : String) (now : Time) :
    DeliveryRecord lib cfg env tr (newDelivery messageId id name url now) where
  attempts := Nat.zero_le _
  answered := Nat.zero_le _
  untried := fun _ => rfl
  code := fun code h => by cases h
  pending := fun _ => ⟨Nat.succ_pos 5, rfl, .inl ⟨rfl, rfl⟩⟩
  delivered := fun h => by cases h
  failed := fun h => by cases h
  cancelled := fun h => by cases h

/-- **An attempt that was not acknowledged** leaves a row that says what it came to. -/
theorem record_retryOrFail (hlt : d.attempts < maxDeliveryAttempts)
    (hanswers : d.attempts < answers d.id tr) {code : Option Nat} {text : String}
    (hcode : ∀ c, code = some c → ∃ response, Heard tr d.id (.ok response) ∧
      response.statusCode = c)
    (hreply : Heard tr d.id reply) (htext : errorText reply = some text) (now : Time) :
    DeliveryRecord lib cfg env tr
      (retryOrFail now { d.attempted with responseCode := code, error := some text }) := by
  unfold retryOrFail WebhookDelivery.attempted
  dsimp only
  split
  · next hmax =>
    exact
      { attempts := hlt
        answered := hanswers
        untried := fun h => by simp at h
        code := hcode
        pending := fun h => by cases h
        delivered := fun h => by cases h
        failed := fun _ => ⟨Nat.le_antisymm hlt hmax, reply, text, hreply, htext, rfl⟩
        cancelled := fun h => by cases h }
  · next hmax =>
    exact
      { attempts := hlt
        answered := hanswers
        untried := fun h => by simp at h
        code := hcode
        pending := fun _ => ⟨Nat.lt_of_not_le hmax, rfl, .inr ⟨Nat.succ_pos _, reply, text,
          hreply, htext, rfl⟩⟩
        delivered := fun h => by cases h
        failed := fun h => by cases h
        cancelled := fun h => by cases h }

/-- **What `deliver` records is what the subscriber has answered.** -/
theorem record_conclude {c : Concluded} (h : DeliveryRecord lib cfg env tr d)
    (hlt : d.attempts < maxDeliveryAttempts) (hanswers : d.attempts < answers d.id tr)
    (hreply : Heard tr d.id reply) (hconclude : conclude d.attempted reply now = .ok c)
    (hbind : c.bindable = true) : DeliveryRecord lib cfg env tr c.delivery := by
  -- What is not acknowledged is recorded with the text of its error
  have hrefused : ∀ (code : Option Nat) (error : PyStr), (∀ x, code = some x →
        ∃ response, Heard tr d.id (.ok response) ∧ response.statusCode = x) →
      errorText reply = error.encode → error.encode.isSome →
      DeliveryRecord lib cfg env tr
        (unacknowledged now { d.attempted with responseCode := code } error).delivery := by
    intro code error hcode htext hsome
    obtain ⟨text, herror⟩ := Option.isSome_iff_exists.mp hsome
    unfold unacknowledged
    rw [herror]
    exact record_retryOrFail hlt hanswers hcode hreply (htext.trans herror) now
  unfold conclude at hconclude
  split at hconclude
  · next response =>
    split at hconclude
    · next hcode =>
      -- acknowledged
      obtain rfl := Except.ok.inj hconclude
      exact
        { attempts := hlt
          answered := hanswers
          untried := fun h => by simp [WebhookDelivery.attempted] at h
          code := fun code heq => ⟨response, hreply, Option.some.inj heq⟩
          pending := fun h => by cases h
          delivered := fun _ => ⟨Nat.succ_pos _, rfl, response, hreply, hcode, rfl⟩
          failed := fun h => by cases h
          cancelled := fun h => by cases h }
    · next hcode =>
      split at hconclude
      · cases hconclude
      · next text htext =>
        obtain rfl := Except.ok.inj hconclude
        exact hrefused _ _ (fun x heq => ⟨response, hreply, Option.some.inj heq⟩)
          (by simp [errorText, hcode, htext]) hbind
  · next exc =>
    -- no response: the code is that of an earlier attempt
    obtain rfl := Except.ok.inj hconclude
    exact hrefused d.responseCode _ h.code rfl hbind
  · cases hconclude

end

/-! ## The loop and its session -/

/-- What the session holds is backed by the run, or the object will not be committed: it is
    for a message that is gone, and the row with it, or something in the session cannot be
    bound. -/
structure DeliveriesInv (lib : Lib) (cfg : Settings) (env : Env) (tr : List Action) (s : Sys) :
    Prop where
  row : ∀ d ∈ s.db.deliveries, DeliveryRecord lib cfg env tr d
  call : ∀ call, ∀ d ∈ (s.inbounds call).deliveries, DeliveryRecord lib cfg env tr d
  batch : ∀ d ∈ s.fanout.batch, DeliveryRecord lib cfg env tr d
  handled : s.fanout.Bindable → ∀ o ∈ s.fanout.handled,
    DeliveryRecord lib cfg env tr o.current ∨ ∀ m ∈ s.db.messages, m.id ≠ o.loaded.messageId

namespace FanoutLoop

variable {lib : Lib} {env : Env} {db db' : Store} {pc pc' : Pc} {a : Act}

/-- What handling a delivery up to its `POST` adds to the session. -/
theorem handle_handled (lib : Lib) (env : Env) (ses : Session) (d : WebhookDelivery)
    (message : Option Message) (todo : List WebhookDelivery) {o : Tracked WebhookDelivery}
    (ho : o ∈ (handle lib env ses d message todo).handled) :
    o ∈ ses.objs ∨ o.loaded = d ∧ (message = none ∨
      o.current = d.unsubscribed ∧ ∃ subs, env.subscribers = .ok subs ∧
        ∀ sub ∈ subs, sub.name ≠ PyStr.text d.subscriber) := by
  have hpush : ∀ {d'}, o ∈ (ses.push ⟨d, d'⟩).objs → o ∈ ses.objs ∨ o = ⟨d, d'⟩ := fun hmem => by
    simpa [Session.push] using hmem
  cases message with
  | none =>
    rcases hpush ho with hold | rfl
    · exact .inl hold
    · exact .inr ⟨rfl, .inl rfl⟩
  | some m =>
    simp only [handle] at ho
    rcases prepare_cases lib env d m with
      ⟨-, e, hprep⟩ | ⟨subs, hsubs, ⟨hfind, hprep⟩ | ⟨sub, r, -, -, -, hprep⟩⟩
    · rw [hprep] at ho
      cases ho
    · rw [hprep] at ho
      rcases hpush ho with hold | rfl
      · exact .inl hold
      · exact .inr ⟨rfl, .inr ⟨rfl, subs, hsubs, fun sub hsub => by
          simpa using List.find?_eq_none.mp hfind sub hsub⟩⟩
    · rw [hprep] at ho
      exact .inl ho

/-- Handling a delivery up to its `POST` adds nothing that cannot be bound. -/
theorem bindable_of_handle {ses : Session} {d : WebhookDelivery} {message : Option Message}
    {todo : List WebhookDelivery} {o : Tracked WebhookDelivery}
    (ho : o ∈ (handle lib env ses d message todo).handled)
    (h : (handle lib env ses d message todo).Bindable) : ses.bindable = true := by
  rcases handle_cases lib env ses d message todo with
    ⟨hidle, -⟩ | ⟨d', -, -, hnext⟩ | ⟨m, request, -, hready⟩
  · rw [hidle] at ho
    cases ho
  · rw [hnext] at h
    exact h (ses.push ⟨d, d'⟩) rfl
  · rw [hready] at h
    exact h _ rfl

end FanoutLoop

/-- The deliveries a call comes to are those `enqueue_fanout` has just made. -/
theorem Inbound.Trans.enqueued {lib : Lib} {cfg : Settings} {env : Env} {db db' : Store}
    {pc pc' : Inbound.Pc} {b : Inbound.Act} (h : Inbound.Trans lib cfg env db pc b db' pc')
    {d : WebhookDelivery} (hd : d ∈ pc'.deliveries) :
    ∃ messageId id name url now, d = newDelivery messageId id name url now := by
  obtain ⟨uuids, now, rfl, -⟩ := h.deliveries hd
  cases h with
  | enqueue henq =>
    unfold Inbound.enqueue at henq
    split at henq
    · obtain rfl := Option.some.inj henq
      cases hd
    · dsimp only at henq
      split at henq
      · split at henq
        · next hds =>
          obtain rfl := Option.some.inj henq
          obtain ⟨id, -, _, -, name, url, -, -, rfl⟩ := Inbound.mem_enqueueFanout hds hd
          exact ⟨_, id, name, url, now, rfl⟩
        · obtain rfl := Option.some.inj henq
          cases hd
      · cases henq

section
variable {lib : Lib} {cfg : Settings} {env : Env} {s t : Sys} {a : Action} {tr : List Action}
  {d r : WebhookDelivery}

/-- The rows of the next state. -/
private theorem DeliveriesInv.row_step (hd : DeliveriesInv lib cfg env tr s) (hi : FanInv s)
    (h : Trans lib cfg s a t) :
    ∀ d ∈ t.db.deliveries, DeliveryRecord lib cfg env (tr ++ [a]) d := by
  intro d hmem
  cases deliveries_origin hi h hmem with
  | kept hold _ => exact (hd.row d hold).extend [a]
  | @committed now ses o _ hpc ho hold heq hbind =>
    have hbindable : s.fanout.Bindable := fun ses' hses' => by
      rw [hpc] at hses'
      obtain rfl := Option.some.inj hses'
      exact hbind
    rcases hd.handled hbindable o (by rw [hpc]; exact ho) with hrecord | hgone
    · rw [heq]
      exact (hrecord.stamp _).extend [a]
    · -- the row is there, so its message is
      obtain ⟨m, hm, hid⟩ := List.mem_map.mp (s.db.integrity.fkMessage o.loaded hold)
      exact absurd hid (hgone m hm)
  | @inserted call _ _ hcall _ => exact (hd.call call d hcall).extend [a]

/-- The deliveries in the hands of the calls of the next state. -/
private theorem DeliveriesInv.call_step (hd : DeliveriesInv lib cfg env tr s)
    (h : Trans lib cfg s a t) (call : Nat) :
    ∀ d ∈ (t.inbounds call).deliveries, DeliveryRecord lib cfg env (tr ++ [a]) d := by
  intro d hmem
  cases h.inbound_step call with
  | other _ hpc => exact (hd.call call d (hpc ▸ hmem)).extend [a]
  | crash hpc => simp [hpc] at hmem
  | own h =>
    obtain ⟨messageId, id, name, url, now, rfl⟩ := h.enqueued hmem
    exact record_newDelivery ..

/-- A message of the batch that is gone stays gone. -/
private theorem gone_step (hinv : Inv cfg s) (hi : FanInv s)
    (h : Trans lib cfg s a t) {o : Tracked WebhookDelivery} (ho : o.loaded ∈ s.fanout.batch)
    (hgone : ∀ m ∈ s.db.messages, m.id ≠ o.loaded.messageId) :
    ∀ m ∈ t.db.messages, m.id ≠ o.loaded.messageId :=
  (hi.standing o.loaded ho).1.message.stays_gone hinv h hgone

/-- What was handled belongs to the batch. -/
private theorem FanoutLoop.Pc.handled_mem_batch {pc : FanoutLoop.Pc} {o : Tracked WebhookDelivery}
    (ho : o ∈ pc.handled) : o.loaded ∈ pc.batch := by
  cases pc with
  | idle => cases ho
  | next | ready | posting => exact List.mem_append_left _ (List.mem_map_of_mem ho)

/-- **The rows stay justified, whoever moves.** -/
theorem deliveriesInv_step (hd : DeliveriesInv lib cfg env tr s) (hi : FanInv s)
    (hinv : Inv cfg s) (hrun : Run lib cfg (Sys.init env) tr s) (hstep : Step lib cfg s a t) :
    DeliveriesInv lib cfg env (tr ++ [a]) t := by
  obtain ⟨hfresh, h⟩ := trans_of_step hstep
  have hrow := hd.row_step hi h
  have hcall := fun call => hd.call_step h call
  -- An object of the session keeps its record, and its message stays gone
  have hkept : s.fanout.Bindable → ∀ o ∈ s.fanout.handled, ∀ o' : Tracked WebhookDelivery,
      o'.loaded = o.loaded → o'.current = { o.current with updatedAt := o'.current.updatedAt } →
      DeliveryRecord lib cfg env (tr ++ [a]) o'.current ∨
        ∀ m ∈ t.db.messages, m.id ≠ o'.loaded.messageId := by
    intro hbind o ho o' hloaded hcur
    rw [hloaded]
    refine (hd.handled hbind o ho).imp (fun hrecord => ?_)
      (gone_step hinv hi h (FanoutLoop.Pc.handled_mem_batch ho))
    rw [hcur]
    exact (hrecord.stamp _).extend [a]
  have hother : t.fanout = s.fanout → DeliveriesInv lib cfg env (tr ++ [a]) t := fun hpc =>
    { row := hrow
      call := hcall
      batch := fun d hmem => (hd.batch d (by rwa [← hpc])).extend [a]
      handled := fun hbind o ho => hkept (hpc ▸ hbind) o (by rwa [← hpc]) o rfl rfl }
  cases h with
  | @fanout b db pc hfan =>
    have hbatch : ∀ d ∈ pc.batch, DeliveryRecord lib cfg env (tr ++ [.fanout b]) d := by
      intro d hmem
      cases hfan.progress hi.current with
      | rest hidle =>
        rw [hidle] at hmem
        cases hmem
      | select now _ hdue =>
        exact (hd.row d (List.mem_of_mem_filter (hdue d hmem))).extend _
      | advance heq => exact (hd.batch d (by rwa [← heq])).extend _
    refine ⟨hrow, hcall, hbatch, fun hbind o ho => ?_⟩
    generalize hpc : s.fanout = pc₀ at hfan
    -- what can be bound now could be bound before
    have hbefore : ∀ {ses}, pc₀.session = some ses → ses.bindable = true → s.fanout.Bindable :=
      fun hses hbind ses' hses' => by
        rw [hpc, hses] at hses'
        obtain rfl := Option.some.inj hses'
        exact hbind
    cases hfan with
    | selectNone | stale | commit | dbError => cases ho
    | select => cases ho
    | @get ses ses' d todo collected now message hget =>
      have hobjs : ∀ o ∈ ses'.objs, _ := (FanoutLoop.getMessage_objs hget).2
      rcases FanoutLoop.handle_handled lib s.env ses' d message todo ho with
        hold | ⟨hloaded, hmessage⟩
      · obtain ⟨o', ho', hloaded, hcur⟩ := hobjs o hold
        have hses : ses.bindable = true := by
          rw [← FanoutLoop.getMessage_bindable hget]
          exact FanoutLoop.bindable_of_handle ho hbind
        exact hkept (hbefore rfl hses) o' (by rw [hpc]; exact ho') o hloaded hcur
      · rcases hmessage with hnone | ⟨hcur, subs, henv, hsubs⟩
        · -- the message was looked up in vain
          right
          rw [hloaded]
          rcases FanoutLoop.getMessage_eq_some hget with ⟨m, -, -, hsome, -⟩ | ⟨-, -, -, hfind, -⟩
          · rw [hnone] at hsome
            cases hsome
          · rw [hnone] at hfind
            exact fun m hm hid =>
              absurd (decide_eq_true hid) (List.find?_eq_none.mp hfind.symm m hm)
        · left
          have hdbatch : d ∈ s.fanout.batch := by
            rw [hpc]
            simp [FanoutLoop.Pc.batch]
          obtain ⟨-, -, hlt⟩ := hi.standing d hdbatch
          have hrecord := (hd.batch d hdbatch).extend [.fanout (.get collected now)]
          rw [hcur]
          exact
            { attempts := hrecord.attempts
              answered := hrecord.answered
              untried := hrecord.untried
              code := hrecord.code
              pending := fun h => by cases h
              delivered := fun h => by cases h
              failed := fun h => by cases h
              cancelled := fun _ => ⟨hlt, rfl,
                (Run.passed_last hrun ⟨subs, henv, hsubs⟩).extend _⟩ }
    | post => exact hkept (hbefore rfl (hbind _ rfl)) o (by rw [hpc]; exact ho) o rfl rfl
    | @posted ses o' request todo reply now =>
      unfold FanoutLoop.afterPost at ho
      split at ho
      · cases ho
      · next c hconclude =>
        have hboth : (ses.bindable && c.bindable) = true := hbind _ (by
          simp only [FanoutLoop.afterPost, hconclude]
          rfl)
        obtain ⟨hses, hc⟩ := Bool.and_eq_true_iff.mp hboth
        rcases List.mem_append.mp ho with hold | hnew
        · exact hkept (hbefore rfl hses) o (by rw [hpc]; exact hold) o rfl rfl
        · -- the delivery in hand, with what its `POST` came to
          obtain rfl := List.mem_singleton.mp hnew
          left
          have hcurrent : o'.current = o'.loaded.attempted := hi.current o' (by rw [hpc]; rfl)
          have hmem : o'.loaded ∈ s.fanout.batch := by
            rw [hpc]
            simp [FanoutLoop.Pc.batch]
          obtain ⟨-, -, hlt⟩ := hi.standing o'.loaded hmem
          rw [hcurrent] at hconclude
          have hrecord := hd.batch o'.loaded hmem
          refine record_conclude (hrecord.extend _) hlt ?_ ⟨now, by simp⟩ hconclude hc
          rw [answers_posted]
          exact Nat.lt_succ_of_le hrecord.answered
  | crash =>
    exact ⟨hrow, hcall, fun _ hmem => (by cases hmem), fun _ _ ho => by cases ho⟩
  | send | status | prune | sendMessage | inbound | configure => exact hother rfl

/-- **Every delivery is justified by the run**, in every reachable state. -/
theorem deliveries_recorded (hrun : Run lib cfg (Sys.init env) tr t) :
    DeliveriesInv lib cfg env tr t :=
  hrun.traceInvariant (P := fun tr s => DeliveriesInv lib cfg env tr s)
    ⟨fun _ h => (by cases h), fun _ _ h => (by cases h), fun _ h => (by cases h),
      fun _ _ h => by cases h⟩
    fun _ _ _ _ hrun hd hstep =>
      deliveriesInv_step hd (fanInv_reachable hrun) (inv_reachable hrun) hrun hstep

/-! ## The end of a delivery -/

/-- The delivery is over: its row is `d` or gone, and no batch has it. -/
structure Over (s : Sys) (d : WebhookDelivery) : Prop where
  settled : s.DeliverySettled d.id
  finished : d.status ≠ .pending
  row : ∀ r ∈ s.db.deliveries, r.id = d.id → r = d
  batch : ∀ b ∈ s.fanout.batch, b.id ≠ d.id

theorem FanInv.over (hi : FanInv s) (hd : d ∈ s.db.deliveries) (hs : d.status ≠ .pending) :
    Over s d where
  settled := (hi.row d hd).1
  finished := hs
  row := fun r hr hid => Store.eq_of_deliveryId hr hd hid
  batch := fun b hb hid => by
    -- a row of the batch is the committed one, and pending
    obtain ⟨hst, hpending, -⟩ := hi.standing b hb
    obtain rfl := hst.row d hd hid.symm
    exact hs hpending

theorem Over.step (ho : Over s d) (hi : FanInv s) (hstep : Step lib cfg s a t) : Over t d := by
  obtain ⟨hfresh, h⟩ := trans_of_step hstep
  refine ⟨ho.settled.step hfresh h, ho.finished, fun r hr hid => ?_, fun b hb hid => ?_⟩
  · cases deliveries_origin hi h hr with
    | kept hold _ => exact ho.row r hold hid
    | @committed now ses o _ hpc hmem _ heq =>
      have hcontent : r.id = o.loaded.id := by
        rw [heq]
        exact WebhookDelivery.id_eq_of_content (hi.handled o (by rw [hpc]; exact hmem)).content
      have hbatch : o.loaded ∈ s.fanout.batch :=
        FanoutLoop.Pc.handled_mem_batch (by rw [hpc]; exact hmem)
      exact absurd (hcontent.symm.trans hid) (ho.batch o.loaded hbatch)
    | inserted _ hcall _ => exact absurd hid (ho.settled.2 _ r hcall)
  · have hother : t.fanout = s.fanout → False := fun hpc => ho.batch b (hpc ▸ hb) hid
    cases h with
    | fanout hfan =>
      cases hfan.progress hi.current with
      | rest hidle =>
        rw [hidle] at hb
        cases hb
      | select now _ hdue =>
        -- only pending rows are due
        obtain ⟨hrow, hisDue⟩ := List.mem_filter.mp (hdue b hb)
        obtain rfl := ho.row b hrow hid
        simp only [FanoutLoop.isDue, Bool.and_eq_true, decide_eq_true_eq] at hisDue
        exact ho.finished hisDue.1
      | advance heq => exact ho.batch b (by rwa [← heq]) hid
    | crash => cases hb
    | send | status | prune | sendMessage | inbound | configure => exact hother rfl

/-- No step posts a delivery that is over. -/
theorem Over.not_posted (ho : Over s d) (hstep : Step lib cfg s a t) : a.delivers d.id = false := by
  by_contra hdelivers
  obtain ⟨-, h⟩ := trans_of_step hstep
  unfold Action.delivers at hdelivers
  split at hdelivers
  · next id =>
    obtain rfl : id = d.id := by simpa using hdelivers
    cases h with
    | fanout hfan =>
      generalize hpc : s.fanout = pc at hfan
      generalize hid : d.id = id at hfan
      cases hfan with
      | @post ses o request todo =>
        -- the delivery in hand belongs to the batch
        exact ho.batch o.loaded (by rw [hpc]; simp [FanoutLoop.Pc.batch]) hid.symm
  · exact hdelivers rfl

/-- **What is over stays over**: the row is not written again, and nothing is posted. -/
theorem Over.run {tr₀ : List Action} (ho : Over s d) (hrun₀ : Run lib cfg (Sys.init env) tr₀ s)
    (hrun : Run lib cfg s tr t) : Over t d ∧ ∀ a ∈ tr, a.delivers d.id = false := by
  induction hrun with
  | nil => exact ⟨ho, fun a h => by cases h⟩
  | @snoc tr u a t hrun hstep ih =>
    obtain ⟨hover, hquiet⟩ := ih
    refine ⟨hover.step (fanInv_reachable (hrun₀.append hrun)) hstep, fun b hb => ?_⟩
    rcases List.mem_append.mp hb with hb | hb
    · exact hquiet b hb
    · rw [List.mem_singleton.mp hb]
      exact hover.not_posted hstep

/-! ## No delivery is lost -/

/-- A row stays, up to what an attempt writes, or its message is gone with it. -/
private theorem delivery_stays (hi : FanInv s) (h : Trans lib cfg s a t)
    (hd : d ∈ s.db.deliveries) :
    (∃ r ∈ t.db.deliveries, r.content = d.content) ∨ ∀ m ∈ t.db.messages, m.id ≠ d.messageId := by
  have hsame : t.db.deliveries = s.db.deliveries → ∃ r ∈ t.db.deliveries, r.content = d.content :=
    fun heq => ⟨d, by rw [heq]; exact hd, rfl⟩
  cases h with
  | send h =>
    left
    rcases h.db_cases with rfl | ⟨now, -, hdb⟩
    · exact hsame rfl
    · exact hsame (Store.updateMessages_eq_some.mp hdb).2.2
  | status h =>
    left
    rcases h.db_cases with rfl | ⟨now, -, -, hdb⟩
    · exact hsame rfl
    · exact hsame (Store.updateMessages_eq_some.mp hdb).2.2
  | @prune now =>
    -- the sweep takes a delivery along with its message, and only so
    by_cases hkept : d.messageId ∈ (prune cfg now s.db).messages.map Message.id
    · exact .inl ⟨d, List.mem_filter.mpr ⟨hd, decide_eq_true hkept⟩, rfl⟩
    · exact .inr fun m hm hid => hkept (List.mem_map.mpr ⟨m, hm, hid⟩)
  | sendMessage h =>
    left
    rcases h.effect with ⟨rfl, -⟩ | ⟨rfl, -⟩ | ⟨-, hdb, -⟩
    · exact hsame rfl
    · exact hsame rfl
    · exact hsame (Store.insertMessages_eq_some.mp hdb).2
  | configure => exact .inl (hsame rfl)
  | crash => exact .inl (hsame rfl)
  | fanout h =>
    left
    generalize hpc : s.fanout = pc at h
    cases h with
    | @commit ses now db' _ hdb =>
      obtain ⟨-, hds, -⟩ := Store.updateDeliveries_eq_some.mp hdb
      refine ⟨flushRow now ses.objs d, by rw [hds]; exact List.mem_map_of_mem hd, ?_⟩
      exact content_flushRow now (fun o ho => hi.handled o (by rw [hpc]; exact ho)) d
    | _ => exact hsame rfl
  | @inbound call _ _ _ h =>
    left
    generalize s.inbounds call = pc at h
    cases h with
    | commit hdb =>
      refine ⟨d, ?_, rfl⟩
      rw [(Store.insertInbound_eq_some.mp hdb).2]
      exact List.mem_append_left _ hd
    | receiptCommit hdb => exact hsame (Store.updateMessages_eq_some.mp hdb).2.2
    | _ => exact hsame rfl

/-- **No delivery is lost while its message is stored.** -/
theorem delivery_kept {tr₀ : List Action} (hrun₀ : Run lib cfg (Sys.init env) tr₀ s)
    (hrun : Run lib cfg s tr t) (hd : d ∈ s.db.deliveries) :
    (∃ r ∈ t.db.deliveries, r.content = d.content) ∨ ∀ m ∈ t.db.messages, m.id ≠ d.messageId := by
  have hsettled : s.Settled d.messageId :=
    ((fanInv_reachable hrun₀).standing_self (inv_reachable hrun₀) hd).message
  induction hrun with
  | nil => exact .inl ⟨d, hd, rfl⟩
  | @snoc tr u a t hrun hstep ih =>
    have hreach := hrun₀.append hrun
    have h := (trans_of_step hstep).2
    rcases ih with ⟨r, hr, hcontent⟩ | hgone
    · -- the row as it is now
      have hmessage : r.messageId = d.messageId := congrArg (·.2.1) hcontent
      rcases delivery_stays (fanInv_reachable hreach) h hr with ⟨r', hr', hcontent'⟩ | hgone
      · exact .inl ⟨r', hr', hcontent'.trans hcontent⟩
      · exact .inr (by rwa [← hmessage])
    · exact .inr ((hsettled.run hrun).stays_gone (inv_reachable hreach) h hgone)

/-- **Every delivery is accounted for.**  In every reachable state each row is backed by what
    has happened; from then on, whatever happens, a row that is over is neither written nor
    posted again, and no row is lost while its message is stored. -/
theorem deliveries_accounted {tr₀ : List Action} (hrun₀ : Run lib cfg (Sys.init env) tr₀ s)
    (hrun : Run lib cfg s tr t) (hd : d ∈ s.db.deliveries) :
    DeliveryRecord lib cfg env tr₀ d ∧
    (d.status ≠ .pending → (∀ r ∈ t.db.deliveries, r.id = d.id → r = d) ∧
      ∀ a ∈ tr, a.delivers d.id = false) ∧
    ((∃ r ∈ t.db.deliveries, r.content = d.content) ∨
      ∀ m ∈ t.db.messages, m.id ≠ d.messageId) := by
  refine ⟨(deliveries_recorded hrun₀).row d hd, fun hs => ?_, delivery_kept hrun₀ hrun hd⟩
  obtain ⟨hover, hquiet⟩ := ((fanInv_reachable hrun₀).over hd hs).run hrun₀ hrun
  exact ⟨hover.row, hquiet⟩

end

namespace Sample

/-- After the acknowledgement the relay restarts and looks for due deliveries. -/
def afterwards : List Action := [.crash, .fanout (.select (seconds 90) [])]

/-- Ids, statuses and attempts of the deliveries. -/
def progress (s : Sys) : List (String × DeliveryStatus × Nat) :=
  s.db.deliveries.map fun d => (d.id, d.status, d.attempts)

end Sample

/-- A delivery that was acknowledged at its second attempt, and a restart. -/
theorem deliveries_accounted_acknowledged : ∃ s t d,
    Run Sample.lib Sample.cfg (Sys.init Sample.bothSubscribed) Sample.attemptedTwice s ∧
    Run Sample.lib Sample.cfg s Sample.afterwards t ∧ d ∈ s.db.deliveries ∧ d.id = "d2" ∧
    d.status = .delivered ∧ d.attempts = 2 ∧
    DeliveryRecord Sample.lib Sample.cfg Sample.bothSubscribed Sample.attemptedTwice d ∧
    (∀ r ∈ t.db.deliveries, r.id = d.id → r = d) ∧
    ∀ a ∈ Sample.afterwards, a.delivers d.id = false := by
  obtain ⟨s, t, hs, hrun, hprogress, -⟩ : ∃ s t,
      Run Sample.lib Sample.cfg (Sys.init Sample.bothSubscribed) Sample.attemptedTwice s ∧
      Run Sample.lib Sample.cfg s Sample.afterwards t ∧
      Sample.progress s = [("d1", .delivered, 1), ("d2", .delivered, 2)] ∧
      Sample.progress t = [("d1", .delivered, 1), ("d2", .delivered, 2)] :=
    run_of_exec_map₂ (by decide +kernel) (by decide +kernel)
  have hlisted : ("d2", DeliveryStatus.delivered, 2) ∈ Sample.progress s := by simp [hprogress]
  obtain ⟨d, hmem, hrow⟩ := List.mem_map.mp hlisted
  obtain ⟨hid, hrest⟩ := Prod.mk.inj hrow
  obtain ⟨hstatus, hattempts⟩ := Prod.mk.inj hrest
  obtain ⟨hrecord, hover, -⟩ := deliveries_accounted hs hrun hmem
  obtain ⟨hrows, hquiet⟩ := hover (by rw [hstatus]; decide)
  exact ⟨s, t, d, hs, hrun, hmem, hid, hstatus, hattempts, hrecord, hrows, hquiet⟩

end SmsRelay
