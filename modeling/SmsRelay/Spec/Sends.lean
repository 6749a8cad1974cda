import SmsRelay.Spec.Channel

/-!
# How often a message is sent

The retry budget lives in the row's `attempts`, and only the two outcomes the send loop
writes down count against it.  The ledger here relates the column to the `POST`s of the
trace.

## Key results

- `Ledger`: in the queue, a row has counted every `POST` made for it
- `sends_bounded`: the budget holds, and nothing is sent again once it was accepted, as
  long as the gateway's answers can be written down
-/

namespace SmsRelay

open UnitOfWork Transition

/-! ## What a trace says about a message -/

/-- A `POST /message` for the message. -/
def Action.isPost (id : String) : Action → Bool
  | .send (.providerSend id') => id' = id
  | _ => false

/-- A `POST` for the message is answered with a 2xx status. -/
def Action.accepts (id : String) : Action → Bool
  | .send (.providerReply id' (.gateway (.ok response)) _) => id' = id && response.isSuccess
  | _ => false

/-- How many `POST`s were made for the message. -/
def posts (id : String) (tr : List Action) : Nat := tr.countP (Action.isPost id)

@[simp] theorem posts_nil (id : String) : posts id [] = 0 := rfl

@[simp] theorem posts_snoc (id : String) (tr : List Action) (a : Action) :
    posts id (tr ++ [a]) = posts id tr + if a.isPost id then 1 else 0 := by
  simp [posts, List.countP_append, List.countP_cons]

/-! ## The runs in question -/

/-- No crash, no failing database, and the client answers or raises `httpx.HTTPError`.
    sqlite3 refusing a value that the code binds is not a failing database. -/
def Undisturbed (s : Sys) : Action → Prop
  | .crash => False
  | .send .dbError => ∃ m, s.send = .unbindable m
  | .send (.providerReply _ (.gateway (.error e)) _) => ∃ text, e = .httpError text
  | _ => True

/-- What an answer to a `POST` comes to can be written into the row. -/
def CanBeRecorded (lib : Lib) : HttpReply → Prop
  | .error (.httpError text) =>
    (PyStr.sliceTo 500 ("gateway unreachable: " ++ text)).encode.isSome
  | .error _ => True
  | .ok response =>
    if 400 ≤ response.statusCode then
      -- the text can be read, and has no surrogate in what is kept of it
      ∃ text ∈ response.text, (text.sliceTo 200).encode.isSome
    else
      match response.json with
      | .ok body => body.truthy = false ∨
          ∃ items, body = .obj items ∧ (lib.bindText (Json.get items "id")).isSome
      | .error (.other _) => False
      | .error _ => True

/-- The answer to a `POST` can be recorded: of an error, its text; below 400, a body that is
    not JSON, or falsy, or an object whose `id` fits into a column. -/
def Recordable (lib : Lib) : Action → Prop
  | .send (.providerReply _ (.gateway reply) _) => CanBeRecorded lib reply
  | _ => True

/-- What a recordable answer comes to. -/
theorem send_of_recordable {lib : Lib} {response : Response}
    (h : CanBeRecorded lib (.ok response)) :
    (∃ pid, AndroidGatewayProvider.send (.ok response) = .ok ⟨pid⟩ ∧
        (lib.bindText pid).isSome) ∨
      ∃ message permanent, 400 ≤ response.statusCode ∧ message.encode.isSome ∧
        AndroidGatewayProvider.send (.ok response) = .error (.providerError message permanent) := by
  -- From 400 on the provider raises; below, the body decides what is recorded
  unfold CanBeRecorded at h
  unfold AndroidGatewayProvider.send
  dsimp only at h ⊢
  by_cases hge : 400 ≤ response.statusCode
  · rw [if_pos hge] at h
    obtain ⟨text, htext, hencode⟩ := h
    have htext : response.text = some text := htext
    rw [if_pos hge, htext]
    exact .inr ⟨_, _, hge, by simp [hencode], rfl⟩
  · rw [if_neg hge] at h
    rw [if_neg hge]
    refine .inl ?_
    cases hjson : response.json with
    | error e =>
      rw [hjson] at h
      cases e with
      | other text => exact h.elim
      | jsonDecodeError | valueError => exact ⟨.null, rfl, rfl⟩
    | ok body =>
      rw [hjson] at h
      rcases h with hfalsy | ⟨items, rfl, hbind⟩
      · refine ⟨.null, ?_, rfl⟩
        simp [getOfDict, Json.or, hfalsy, Json.get, Json.lookup, Except.map]
      · by_cases htruthy : (Json.obj items).truthy
        · exact ⟨_, by simp only [getOfDict, Json.or, htruthy, if_true, Except.map], hbind⟩
        · refine ⟨.null, ?_, rfl⟩
          simp [getOfDict, Json.or, htruthy, Json.get, Json.lookup, Except.map]

/-- An error whose text has no surrogate in what is kept of it is recorded. -/
theorem afterSend_providerError (lib : Lib) (cfg : Settings) (m : Message) (now : Time)
    {message : PyStr} (permanent : Bool) (h : (message.sliceTo 500).encode.isSome) :
    ∃ error, SendLoop.afterSend lib cfg m now (.error (.providerError message permanent)) =
      .finishing
        ((Tracked.load m).assign (SendLoop.recordFailure cfg error permanent now)) := by
  obtain ⟨error, herror⟩ := Option.isSome_iff_exists.mp h
  exact ⟨error, by simp only [SendLoop.afterSend, herror]⟩

/-- **A recordable answer is recorded**: the loop goes on to commit its outcome. -/
theorem afterSend_of_recordable {lib : Lib} {cfg : Settings} {s : Sys} {m : Message}
    {reply : ProviderReply} {now : Time} {result : Except PyError SendResult}
    (hprov : cfg.provider = .androidGateway)
    (hundisturbed : Undisturbed s (.send (.providerReply m.id reply now)))
    (hrec : Recordable lib (.send (.providerReply m.id reply now)))
    (hresult : providerSend cfg.provider reply = some result) :
    ∃ o, SendLoop.afterSend lib cfg m now result = .finishing o ∧ o.loaded = m ∧
      ((∃ message permanent, o.current = SendLoop.recordFailure cfg message permanent now m ∧
          (Action.send (.providerReply m.id reply now)).accepts m.id = false) ∨
        ∃ pid, o.current = SendLoop.markSent pid now m) := by
  rw [hprov] at hresult
  cases reply with
  | file written => cases hresult
  | gateway reply =>
    obtain rfl := Option.some.inj hresult
    have hrec : CanBeRecorded lib reply := hrec
    -- The gateway has not answered, or has answered with a body that can be recorded
    cases reply with
    | error e =>
      obtain ⟨text, rfl⟩ := hundisturbed
      obtain ⟨error, hafter⟩ := afterSend_providerError lib cfg m now false hrec
      exact ⟨_, hafter, rfl, .inl ⟨_, _, rfl, rfl⟩⟩
    | ok response =>
      rcases send_of_recordable hrec with
        ⟨pid, hsend, hbind⟩ | ⟨message, permanent, hge, hencode, hsend⟩
      · obtain ⟨stored, hstored⟩ := Option.isSome_iff_exists.mp hbind
        refine ⟨(Tracked.load m).assign (SendLoop.markSent stored now), ?_, rfl,
          .inr ⟨stored, rfl⟩⟩
        simp only [SendLoop.afterSend, hsend, hstored]
      · obtain ⟨error, hafter⟩ := afterSend_providerError lib cfg m now permanent
          (PyStr.isSome_encode_sliceTo 500 hencode)
        rw [← hsend] at hafter
        refine ⟨_, hafter, rfl, .inl ⟨error, permanent, rfl, ?_⟩⟩
        have hnot : response.isSuccess = false := by
          simp only [Response.isSuccess, Bool.and_eq_false_iff, decide_eq_false_iff_not]
          exact .inr (by omega)
        simp [Action.accepts, hnot]

/-! ## The ledger -/

/-- `POST`s made and not yet written down. -/
def SendLoop.Pc.inFlight (id : String) : SendLoop.Pc → Nat
  | .sending m => if m.id = id then 1 else 0
  | .finishing o => if o.loaded.id = id then 1 else 0
  | _ => 0

/-- The send loop is about to commit that the provider took the message. -/
def SendLoop.Pc.HasAccepted (id : String) (pc : SendLoop.Pc) : Prop :=
  ∃ o pid now, pc = .finishing o ∧ o.loaded.id = id ∧
    o.current = SendLoop.markSent pid now o.loaded

/-- The `POST`s of a trace against the rows of the state it leads to. -/
structure Ledger (cfg : Settings) (tr : List Action) (s : Sys) : Prop where
  bound : ∀ id, (posts id tr : Int) ≤ cfg.attemptBound
  queue : ∀ m ∈ s.db.messages, ¬ m.LeftQueue →
    posts m.id tr = m.attempts + s.send.inFlight m.id
  drawn : ∀ id, posts id tr ≠ 0 → s.Settled id
  accepted : ∀ id, (∃ b ∈ tr, b.accepts id) → s.Settled id ∧
    (s.send.HasAccepted id ∨ ∀ m ∈ s.db.messages, m.id = id → m.LeftQueue)

/-- Only rows of the database are in flight. -/
theorem inFlight_of_not_settled {cfg : Settings} {s : Sys} {id : String} (hi : Inv cfg s)
    (h : ¬ s.Settled id) : s.send.inFlight id = 0 := by
  have hsend := hi.send
  -- Both kinds of calls in flight are for a committed row
  unfold SendLoop.Pc.inFlight
  split
  · next m hpc =>
    rw [hpc] at hsend
    refine if_neg fun hid => h ?_
    rw [← hid]
    exact (hi.row m hsend.1).2
  · next o hpc =>
    rw [hpc] at hsend
    refine if_neg fun hid => h ?_
    rw [← hid]
    exact (hi.row o.loaded hsend.1).2
  · rfl

/-- Steps of the other parties neither send nor touch a row in the queue. -/
theorem Ledger.other {lib : Lib} {cfg : Settings} {tr : List Action} {s t : Sys} {a : Action}
    (hl : Ledger cfg tr s) (hi : Inv cfg s) (hfresh : Fresh s a) (h : Trans lib cfg s a t)
    (ha : ∀ b, a ≠ .send b) (hsend : t.send = s.send) : Ledger cfg (tr ++ [a]) t := by
  have hposts : ∀ id, posts id (tr ++ [a]) = posts id tr := fun id => by
    cases a with
    | send b => exact absurd rfl (ha b)
    | _ => simp [Action.isPost]
  have hacc : ∀ id, a.accepts id = false := fun id => by
    cases a with
    | send b => exact absurd rfl (ha b)
    | _ => rfl
  -- The parties without a `POST` leave every tally as it is
  refine
    { bound := fun id => by rw [hposts]; exact hl.bound id
      queue := fun m hm hq => ?_
      drawn := fun id hpos => (hl.drawn id (by rwa [← hposts])).step hfresh h
      accepted := fun id hb => ?_ }
  · rw [hposts, hsend]
    rcases rows_origin hi h hm with ⟨r, hr, rfl | hcause⟩ | ⟨c, -, hrow, -⟩
    · exact hl.queue _ hr hq
    · exact absurd (leftQueue_change (hcause.leftQueue hi hr ha) (hcause.change hi hr)) hq
    · -- a new row, under an id that nothing was ever posted for
      have hunsettled : ¬ s.Settled m.id := fun hs => hs.2 c ⟨m, hrow, rfl⟩
      have hzero : posts m.id tr = 0 := by
        by_contra hne
        exact hunsettled (hl.drawn _ hne)
      rw [hzero, inFlight_of_not_settled hi hunsettled, (hi.call_row c m hrow).1.2.2.1]
  · obtain ⟨b, hb, hacc'⟩ := hb
    rcases List.mem_append.mp hb with hb | hb
    · obtain ⟨hset, hcase⟩ := hl.accepted id ⟨b, hb, hacc'⟩
      refine ⟨hset.step hfresh h, ?_⟩
      rw [hsend]
      exact hcase.imp_right fun hleft => hi.leftQueue_step h hset hleft
    · rw [List.mem_singleton.mp hb, hacc id] at hacc'
      cases hacc'

/-- A step of the send loop that makes no `POST`, hears of none and changes no row. -/
theorem Ledger.quiet {cfg : Settings} {tr : List Action} {s : Sys} {a : Action}
    {pc : SendLoop.Pc} (hl : Ledger cfg tr s) (hpost : ∀ id, a.isPost id = false)
    (hacc : ∀ id, a.accepts id = false) (hbefore : ∀ o, s.send ≠ .finishing o)
    (hflight : ∀ id, pc.inFlight id = s.send.inFlight id) :
    Ledger cfg (tr ++ [a]) { s with send := pc } := by
  refine
    { bound := fun id => by simpa [hpost] using hl.bound id
      queue := fun m hm hq => by simpa [hpost, hflight] using hl.queue m hm hq
      drawn := fun id hpos => hl.drawn id (by simpa [hpost] using hpos)
      accepted := fun id hb => ?_ }
  -- the step accepts nothing, so the acceptance is an earlier one
  obtain ⟨b, hb, hacc'⟩ := hb
  rcases List.mem_append.mp hb with hb | hb
  · obtain ⟨hset, ⟨o, pid, now, hpc, -⟩ | hleft⟩ := hl.accepted id ⟨b, hb, hacc'⟩
    · exact absurd hpc (hbefore o)
    · exact ⟨hset, .inr hleft⟩
  · rw [List.mem_singleton.mp hb, hacc id] at hacc'
    cases hacc'

/-- A commit of the send loop's objects: a row that stays in the queue has to have
    written down what was in flight. -/
theorem Ledger.commit {lib : Lib} {cfg : Settings} {tr : List Action} {s : Sys} {now : Time}
    {db : Store} {pc : SendLoop.Pc} (hl : Ledger cfg tr s) (hi : Inv cfg s)
    (hfresh : Fresh s (.send (.commit now)))
    (h : Trans lib cfg s (.send (.commit now)) { s with db := db, send := pc })
    (hdb : s.db.updateMessages now s.send.objs = some db)
    (hflight : ∀ id, (∀ o ∈ s.send.objs, id ≠ o.loaded.id) → s.send.inFlight id = 0)
    (hafter : ∀ id, pc.inFlight id = 0)
    (hobjs : ∀ o ∈ s.send.objs, ¬ o.current.LeftQueue →
      o.current.attempts = o.loaded.attempts + s.send.inFlight o.loaded.id)
    (hacc : ∀ id, s.send.HasAccepted id → ∃ o, s.send.objs = [o] ∧ o.loaded.id = id ∧
      o.current.LeftQueue) :
    Ledger cfg (tr ++ [.send (.commit now)]) { s with db := db, send := pc } := by
  have hloaded := hi.send.objs.2
  refine
    { bound := fun id => by simpa [Action.isPost] using hl.bound id
      queue := fun m hm hq => ?_
      drawn := fun id hpos => (hl.drawn id (by simpa [Action.isPost] using hpos)).step hfresh h
      accepted := fun id hb => ?_ }
  · simp only [posts_snoc, Action.isPost, Bool.false_eq_true, if_false, Nat.add_zero, hafter]
    rcases hi.send.mem_commit hdb hm with ⟨hold, hne⟩ | ⟨o, ho, rfl⟩
    · rw [hl.queue m hold hq, hflight m.id hne]
      rfl
    · -- an object is committed: what it counts is what was posted for its row
      have hqc : ¬ o.current.LeftQueue := by
        rwa [Message.LeftQueue, ← saved_status now o]
      have hql : ¬ o.loaded.LeftQueue := fun hleft => not_or.mpr hleft (hloaded o ho).2.inQueue
      have hid : (o.saved now).id = o.loaded.id := by
        rw [saved_eq]
        exact hi.send.keepsKeys o ho
      have hatt : (o.saved now).attempts = o.current.attempts := by rw [saved_eq]
      rw [hid, hatt, hobjs o ho hqc, hl.queue o.loaded (hloaded o ho).1 hql]
  -- The commit is no answer, so the acceptance is an older one
  · obtain ⟨b, hb, hacc'⟩ := hb
    rcases List.mem_append.mp hb with hb | hb
    · obtain ⟨hset, hcase⟩ := hl.accepted id ⟨b, hb, hacc'⟩
      refine ⟨hset.step hfresh h, .inr ?_⟩
      rcases hcase with hhas | hleft
      · -- the commit takes the accepted row out of the queue
        obtain ⟨o, hsingle, hid, hleft⟩ := hacc id hhas
        intro m hm hmid
        have ho : o ∈ s.send.objs := by rw [hsingle]; exact List.mem_singleton.mpr rfl
        rw [hi.send.eq_saved ho hdb hm (hmid.trans hid.symm), Message.LeftQueue, saved_status]
        exact hleft
      · exact hi.leftQueue_step h hset hleft
    · rw [List.mem_singleton.mp hb] at hacc'
      cases hacc'

/-- Only the outcome of a `POST` counts as an attempt. -/
theorem SendInv.attempts_eq {cfg : Settings} {db : Store} {pc : SendLoop.Pc}
    (hi : SendInv cfg db pc) (hnot : ∀ o, pc ≠ .finishing o) :
    ∀ o ∈ pc.objs, o.current.attempts = o.loaded.attempts := by
  intro o ho
  cases pc with
  | requeueing objs =>
    -- an object is changed by `requeue_orphaned`, by `claim_next`, by the
    -- acknowledgement of ntfy or by the fallback; none of them touches the column
    obtain ⟨-, -, now, hcur⟩ := hi.2 o ho
    rw [hcur]
    rfl
  | claimed o' =>
    obtain rfl := List.mem_singleton.mp ho
    obtain ⟨-, -, now, hcur⟩ := hi
    rw [hcur]
    rfl
  | acknowledged o' =>
    obtain rfl := List.mem_singleton.mp ho
    obtain ⟨-, -, -, receipt, now, hcur⟩ := hi
    rw [hcur]
    rfl
  | fellBack o' =>
    obtain rfl := List.mem_singleton.mp ho
    rw [hi.2.2.2]
    rfl
  | finishing o' => exact absurd rfl (hnot o')
  | _ => cases ho

/-- A commit of objects that have nothing to do with a `POST`. -/
theorem Ledger.commitStill {lib : Lib} {cfg : Settings} {tr : List Action} {s : Sys} {now : Time}
    {db : Store} {pc : SendLoop.Pc} (hl : Ledger cfg tr s) (hi : Inv cfg s)
    (hfresh : Fresh s (.send (.commit now)))
    (h : Trans lib cfg s (.send (.commit now)) { s with db := db, send := pc })
    (hdb : s.db.updateMessages now s.send.objs = some db)
    (hnone : ∀ id, s.send.inFlight id = 0) (hnot : ∀ o, s.send ≠ .finishing o)
    (hafter : ∀ id, pc.inFlight id = 0) :
    Ledger cfg (tr ++ [.send (.commit now)]) { s with db := db, send := pc } := by
  -- nothing was in flight, so what each object has to have written down is nothing
  apply hl.commit hi hfresh h hdb (fun id _ => hnone id) hafter
  · intro o ho _
    rw [hnone, hi.send.attempts_eq hnot o ho]
    rfl
  · rintro id ⟨o, pid, now, hfinishing, -⟩
    exact absurd hfinishing (hnot o)

/-- The `POST` itself: the row has budget left. -/
theorem Ledger.post {cfg : Settings} {tr : List Action} {s : Sys} {m : Message}
    (hl : Ledger cfg tr s) (hi : Inv cfg s) (hpc : s.send = .limiting m) :
    Ledger cfg (tr ++ [.send (.providerSend m.id)]) { s with send := .sending m } := by
  have hsend := hi.send
  rw [hpc] at hsend
  obtain ⟨hm, hs, -⟩ := hsend
  have hposts : ∀ id, posts id (tr ++ [.send (.providerSend m.id)]) =
      posts id tr + if m.id = id then 1 else 0 := fun id => by simp [Action.isPost]
  -- nothing is in flight for the row yet
  have hrow : posts m.id tr = m.attempts := by
    have := hl.queue m hm (fun hleft => hleft.2 hs)
    rwa [hpc] at this
  refine
    { bound := fun id => ?_
      queue := fun r hr hq => ?_
      drawn := fun id hpos => ?_
      accepted := fun id hb => ?_ }
  · rw [hposts]
    split
    · next hid =>
      -- a row that is being sent has not used up its attempts
      have hlt := ((hi.row m hm).1.pending (.inr hs)).2.2.2
      rw [← hid, hrow]
      push_cast
      omega
    · simpa using hl.bound id
  · have := hl.queue r hr hq
    rw [hposts, this, hpc]
    rfl
  · rw [hposts] at hpos
    split at hpos
    · next hid => exact hid ▸ (hi.row m hm).2
    · exact hl.drawn id hpos
  · obtain ⟨b, hb, hacc⟩ := hb
    rcases List.mem_append.mp hb with hb | hb
    · obtain ⟨hset, ⟨o, pid, now, hpc', -⟩ | hleft⟩ := hl.accepted id ⟨b, hb, hacc⟩
      · rw [hpc] at hpc'
        cases hpc'
      · exact ⟨hset, .inr hleft⟩
    · rw [List.mem_singleton.mp hb] at hacc
      cases hacc

/-- The answer to a `POST` moves what is in flight into the object of the row. -/
theorem Ledger.answer {lib : Lib} {cfg : Settings} {tr : List Action} {s : Sys} {m : Message}
    {reply : ProviderReply} {now : Time} {result : Except PyError SendResult}
    (hl : Ledger cfg tr s) (hi : Inv cfg s) (hpc : s.send = .sending m)
    (hprov : cfg.provider = .androidGateway)
    (hundisturbed : Undisturbed s (.send (.providerReply m.id reply now)))
    (hrec : Recordable lib (.send (.providerReply m.id reply now)))
    (hresult : providerSend cfg.provider reply = some result) :
    Ledger cfg (tr ++ [.send (.providerReply m.id reply now)])
      { s with send := SendLoop.afterSend lib cfg m now result } := by
  have hsend := hi.send
  rw [hpc] at hsend
  -- The answer is recorded in the object of the row
  obtain ⟨o, hafter, rfl, hcur⟩ := afterSend_of_recordable hprov hundisturbed hrec hresult
  rw [hafter]
  refine
    { bound := fun id => by simpa [Action.isPost] using hl.bound id
      queue := fun r hr hq => ?_
      drawn := fun id hpos => hl.drawn id (by simpa [Action.isPost] using hpos)
      accepted := fun id hb => ?_ }
  · have := hl.queue r hr hq
    rw [hpc] at this
    simpa [Action.isPost, SendLoop.Pc.inFlight] using this
  · obtain ⟨b, hb, hacc⟩ := hb
    rcases List.mem_append.mp hb with hb | hb
    · obtain ⟨hset, ⟨o', pid, now', hpc', -⟩ | hleft⟩ := hl.accepted id ⟨b, hb, hacc⟩
      · rw [hpc] at hpc'
        cases hpc'
      · exact ⟨hset, .inr hleft⟩
    · -- the answer that has just come is about the row in hand
      rw [List.mem_singleton.mp hb] at hacc
      obtain rfl : o.loaded.id = id := by
        unfold Action.accepts at hacc
        split at hacc
        · next heq =>
          simp only [Action.send.injEq, SendLoop.Act.providerReply.injEq] at heq
          simp only [Bool.and_eq_true, decide_eq_true_eq] at hacc
          exact heq.1.trans hacc.1
        · cases hacc
      refine ⟨(hi.row _ hsend.1).2, .inl ?_⟩
      rcases hcur with ⟨message, permanent, -, hnot⟩ | ⟨pid, hcur⟩
      · rw [hnot] at hacc
        cases hacc
      · exact ⟨o, pid, now, rfl, rfl, hcur⟩

/-- After `publish` nothing is in flight to the gateway. -/
theorem afterPublish_inFlight (m : Message) (reply : HttpReply) (now : Time) (id : String) :
    (SendLoop.afterPublish m reply now).inFlight id = 0 := by
  unfold SendLoop.afterPublish
  split
  · split <;> rfl
  · split <;> rfl

theorem afterClaim_inFlight (m : Message) (id : String) :
    (SendLoop.afterClaim m).inFlight id = 0 := by
  unfold SendLoop.afterClaim
  split <;> rfl

/-- **The ledger is kept by every step of an undisturbed run with recordable answers.** -/
theorem ledger_step {lib : Lib} {cfg : Settings} {tr : List Action} {s t : Sys} {a : Action}
    (hprov : cfg.provider = .androidGateway) (hl : Ledger cfg tr s) (hi : Inv cfg s)
    (hstep : Step lib cfg s a t) (hundisturbed : Undisturbed s a) (hrec : Recordable lib a) :
    Ledger cfg (tr ++ [a]) t := by
  obtain ⟨hfresh, htrans⟩ := trans_of_step hstep
  have hother := hl.other hi hfresh htrans
  cases htrans with
  | crash => exact absurd hundisturbed id
  | status | fanout | prune | sendMessage | inbound | configure =>
    exact hother (fun _ h => by cases h) rfl
  | @send b db pc h =>
    have htrans : Trans lib cfg s (.send b) { s with db := db, send := pc } := .send h
    have hsend := hi.send
    generalize hpc : s.send = pc₀ at h hsend
    -- Reads and calls are quiet; a commit may count an attempt
    cases h with
    | requeueNone | requeueSome | claimNone | claimSome | publish =>
      exact hl.quiet (fun _ => rfl) (fun _ => rfl) (fun o h => by rw [hpc] at h; cases h)
        (fun id => by rw [hpc]; rfl)
    | publishReply =>
      exact hl.quiet (fun _ => rfl) (fun _ => rfl) (fun o h => by rw [hpc] at h; cases h)
        (fun id => by rw [hpc]; exact afterPublish_inFlight _ _ _ id)
    | providerSend => exact hl.post hi hpc
    | providerReply hresult => exact hl.answer hi hpc hprov hundisturbed hrec hresult
    | dbError =>
      -- what cannot be bound is the id of a receipt from ntfy: nothing is in flight
      obtain ⟨m, hm⟩ := hundisturbed
      exact hl.quiet (fun _ => rfl) (fun _ => rfl) (fun o h => by rw [hm] at h; cases h)
        (fun id => by rw [hm]; rfl)
    | requeued hdb | acknowledged hdb | fellBack hdb =>
      exact hl.commitStill hi hfresh htrans (by rw [hpc]; exact hdb) (fun id => by rw [hpc]; rfl)
        (fun o h => by rw [hpc] at h; cases h) (fun _ => rfl)
    | claimed hdb =>
      exact hl.commitStill hi hfresh htrans (by rw [hpc]; exact hdb) (fun id => by rw [hpc]; rfl)
        (fun o h => by rw [hpc] at h; cases h) (fun id => afterClaim_inFlight _ id)
    | @finishing o now db' hdb =>
      refine hl.commit hi hfresh htrans (by rw [hpc]; exact hdb) (fun id hne => ?_)
        (fun _ => rfl) (fun o' ho' hq => ?_) ?_
      · rw [hpc] at hne ⊢
        exact if_neg (hne o (List.mem_singleton.mpr rfl)).symm
      · -- the one attempt in flight is the one the outcome counts
        rw [hpc] at ho' ⊢
        obtain rfl := List.mem_singleton.mp ho'
        have hone : (SendLoop.Pc.finishing o').inFlight o'.loaded.id = 1 := if_pos rfl
        rw [hone]
        obtain ⟨-, -, -, ⟨message, permanent, now', hcur⟩ | ⟨pid, now', hcur⟩⟩ := hsend
        · rw [hcur]
          exact (recordFailure_cases cfg message permanent now' o'.loaded).1
        · rw [hcur]
          rfl
      · rintro id ⟨o', pid, now', hfin, hid, hcur⟩
        rw [hpc] at hfin
        obtain rfl : o = o' := by injection hfin
        refine ⟨o, by rw [hpc]; rfl, hid, ?_⟩
        rw [hcur]
        exact ⟨nofun, nofun⟩

/-- The ledger of a new deployment. -/
theorem ledger_init (cfg : Settings) (env : Env) : Ledger cfg [] (Sys.init env) where
  bound _ := by
    have := cfg.one_le_attemptBound
    simp only [posts_nil]
    omega
  queue _ hm := absurd hm List.not_mem_nil
  drawn _ hpos := absurd rfl hpos
  accepted _ hb := by
    obtain ⟨b, hb, -⟩ := hb
    cases hb

/-- The steps of the runs in question. -/
def SendGuard (lib : Lib) (s : Sys) (a : Action) : Prop := Undisturbed s a ∧ Recordable lib a

variable {lib : Lib} {cfg : Settings} {env : Env} {tr : List Action} {t : Sys}

theorem ledger_run (hprov : cfg.provider = .androidGateway)
    (hrun : Transition.Run (Guarded (SendGuard lib) (Step lib cfg)) (Sys.init env) tr t) :
    Ledger cfg tr t :=
  hrun.traceInvariant (P := Ledger cfg) (ledger_init cfg env)
    fun _ _ _ _ hrun hl h =>
      ledger_step hprov hl (inv_reachable hrun.unguard) h.2 h.1.1 h.1.2

/-- **Bounded, non-repeating sends.**  In a run without crashes and failing commits, if
    what every answer comes to can be recorded, then a message is sent at most
    `max(1, max_attempts)` times, and never after the gateway has accepted it. -/
theorem sends_bounded (hprov : cfg.provider = .androidGateway)
    (hrun : Transition.Run (Guarded (SendGuard lib) (Step lib cfg)) (Sys.init env) tr t)
    (id : String) :
    (posts id tr : Int) ≤ max 1 cfg.maxAttempts ∧
      tr.Pairwise fun b a => b.accepts id = true → ¬ a.isPost id = true := by
  refine ⟨(ledger_run hprov hrun).bound id, ?_⟩
  refine Run.pairwise_never (fun tr u a v hrun hstep ha b hb hacc => ?_) hrun
  have hl := ledger_run hprov hrun
  have hi := inv_reachable hrun.unguard
  cases a with
  | send c =>
    cases c with
    | providerSend id' =>
      obtain rfl : id' = id := by simpa [Action.isPost] using ha
      obtain ⟨-, htrans⟩ := trans_of_step hstep.2
      obtain ⟨m, hm, hid, hs, -⟩ := providerSend_row hi hstep.2
      -- an accepted message waits for its commit, or has left the queue
      rcases (hl.accepted id' ⟨b, hb, hacc⟩).2 with ⟨o, pid, now, hfin, -⟩ | hleft
      · cases htrans with
        | send h =>
          rw [hfin] at h
          cases h
      · exact (hleft m hm hid).2 hs
    | _ => cases ha
  | _ => cases ha

namespace Sample

/-- The gateway fails once, and takes the message at the second attempt. -/
def retried : List Action :=
  queue "m1" 0 ++ post "m1" 1 ++ [answer "m1" 503 none 2, .send (.commit 2)] ++
    post "m1" (seconds 40) ++
      [answer "m1" 202 (some (.obj [("id", .str "g1")])) (seconds 41), .send (.commit (seconds 41))]

/-- The gateway accepts the message with a JSON array for a body; five minutes later the
    row is found stuck and the message is sent again. -/
def resent : List Action :=
  queue "m1" 0 ++ post "m1" 1 ++ [answer "m1" 200 (some (.arr [.str "g1"])) 2] ++
    [.send (.requeueSelect (seconds 301) (seconds 301)), .send (.commit (seconds 301)),
      .send (.claimSelect (seconds 302) (some "m1")), .send (.commit (seconds 302)),
      .send (.providerSend "m1")]

end Sample

/-- A retried message has used two of its five attempts. -/
theorem sends_bounded_retried : ∃ t,
    Run Sample.lib Sample.cfg (Sys.init Sample.env) Sample.retried t ∧
    Sample.statuses t = [("m1", .sent)] ∧ posts "m1" Sample.retried = 2 ∧
    (posts "m1" Sample.retried : Int) ≤ max 1 Sample.cfg.maxAttempts := by
  obtain ⟨t, hrun, hrows⟩ : ∃ t,
      Run Sample.lib Sample.cfg (Sys.init Sample.env) Sample.retried t ∧
      Sample.statuses t = [("m1", .sent)] := run_of_exec_map (by decide +kernel)
  have hguard := hrun.guard (P := fun a => ∀ s, SendGuard Sample.lib s a) (by
    simp [Sample.retried, Sample.queue, Sample.post, Sample.answer, SendGuard, Undisturbed,
      Recordable, CanBeRecorded, Json.get, Json.lookup, Lib.bindText])
  exact ⟨t, hrun, hrows, by decide +kernel,
    (sends_bounded rfl (hguard.mono fun _ _ _ h => ⟨h.1 _, h.2⟩) "m1").1⟩

/-- The promise, of every run without crashes and failing commits. -/
def SendsBounded (lib : Lib) (cfg : Settings) (env : Env) : Prop :=
  ∀ tr t id, Transition.Run (Guarded Undisturbed (Step lib cfg)) (Sys.init env) tr t →
    (posts id tr : Int) ≤ max 1 cfg.maxAttempts ∧
      tr.Pairwise fun b a => b.accepts id = true → ¬ a.isPost id = true

/-- A JSON array in a 200 answer escapes the send loop, and the message is sent twice. -/
theorem not_sendsBounded_array : ¬ SendsBounded Sample.lib Sample.cfg Sample.env := by
  intro hclaim
  obtain ⟨t, hrun, -⟩ : ∃ t,
      Run Sample.lib Sample.cfg (Sys.init Sample.env) Sample.resent t ∧
      Sample.statuses t = [("m1", .sending)] := run_of_exec_map (by decide +kernel)
  have hguard := hrun.guard (P := fun a => ∀ s, Undisturbed s a) (by
    simp [Sample.resent, Sample.queue, Sample.post, Sample.answer, Undisturbed])
  have hpairs := (hclaim _ t "m1" (hguard.mono fun _ _ _ h => ⟨h.1 _, h.2⟩)).2
  revert hpairs
  decide +kernel

end SmsRelay
