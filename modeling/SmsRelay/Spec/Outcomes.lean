import SmsRelay.Spec.Sends

/-!
# Recorded outcomes and what they rest on

Every outcome a row records is compared with the answers in the trace: a sent message
was accepted, a published one acknowledged, a failed one refused often enough or for
good.  Crashes, lost commits and retries may only make the trace richer than the row.

## Key results

- `Recorded`: what rows and sessions know is in the trace
- `outcomes_justified`: the same for every outcome, as long as the gateway answers
  nothing but 2xx below 400 and no receipt names a published message
-/

namespace SmsRelay

open UnitOfWork Transition

/-! ## What a trace says about a message -/

/-- Some `POST` for the message was answered with a 2xx status. -/
def Accepted (id : String) (tr : List Action) : Prop := ∃ b ∈ tr, b.accepts id = true

/-- ntfy answered a publication of the message with a 2xx message receipt. -/
def Acknowledged (id : String) (tr : List Action) : Prop :=
  ∃ response now items receipt,
    Action.send (.publishReply id (.ok response) now) ∈ tr ∧ response.isSuccess = true ∧
      response.json = .ok (.obj items) ∧ Json.get items "event" = .str "message" ∧
      Json.get items "id" = .str receipt

/-- Some `POST` for the message was answered with a 4xx status other than 429. -/
def Rejected (id : String) (tr : List Action) : Prop :=
  ∃ response now, Action.send (.providerReply id (.gateway (.ok response)) now) ∈ tr ∧
    400 ≤ response.statusCode ∧ response.statusCode < 500 ∧ response.statusCode ≠ 429

/-- The gateway was polled for the message and reported it failed. -/
def PolledFailed (id : String) (tr : List Action) : Prop :=
  ∃ response items, Action.status (.fetched id (.gateway (.ok response))) ∈ tr ∧
    response.isSuccess = true ∧ response.json = .ok (.obj items) ∧
      Json.get items "state" = .str "Failed"

/-- An attempt for the message failed: no connection, or a status from 400 on. -/
def Action.isFailure (id : String) : Action → Bool
  | .send (.providerReply id' (.gateway (.ok response)) _) => id' = id && 400 ≤ response.statusCode
  | .send (.providerReply id' (.gateway (.error (.httpError _))) _) => id' = id
  | _ => false

/-- How many attempts for the message failed. -/
def failures (id : String) (tr : List Action) : Nat := tr.countP (Action.isFailure id)

section
variable {id : String} {tr : List Action} {a : Action}

theorem Accepted.snoc (h : Accepted id tr) : Accepted id (tr ++ [a]) := by
  obtain ⟨b, hb, hacc⟩ := h
  exact ⟨b, List.mem_append_left _ hb, hacc⟩

theorem Acknowledged.snoc (h : Acknowledged id tr) : Acknowledged id (tr ++ [a]) := by
  obtain ⟨response, now, items, receipt, hmem, hrest⟩ := h
  exact ⟨response, now, items, receipt, List.mem_append_left _ hmem, hrest⟩

theorem Rejected.snoc (h : Rejected id tr) : Rejected id (tr ++ [a]) := by
  obtain ⟨response, now, hmem, hrest⟩ := h
  exact ⟨response, now, List.mem_append_left _ hmem, hrest⟩

theorem PolledFailed.snoc (h : PolledFailed id tr) : PolledFailed id (tr ++ [a]) := by
  obtain ⟨response, items, hmem, hrest⟩ := h
  exact ⟨response, items, List.mem_append_left _ hmem, hrest⟩

theorem failures_snoc : failures id (tr ++ [a]) =
    failures id tr + if a.isFailure id then 1 else 0 := by
  simp [failures, List.countP_append, List.countP_cons]

theorem failures_le_snoc : failures id tr ≤ failures id (tr ++ [a]) := by
  rw [failures_snoc]
  exact Nat.le_add_right _ _

end

/-! ## Records -/

/-- What the columns of an outbound row rest on. -/
structure RowRecord (cfg : Settings) (tr : List Action) (m : Message) : Prop where
  attempts : ¬ m.LeftQueue → m.attempts ≤ failures m.id tr
  sent : m.status = .sent → Accepted m.id tr
  delivered : m.status = .delivered → m.transport ≠ .ntfy ∧ Accepted m.id tr
  published : m.status = .published → Acknowledged m.id tr
  failed : m.status = .failed → Rejected m.id tr ∨
    cfg.attemptBound ≤ failures m.id tr ∨ PolledFailed m.id tr
  providerId : m.providerMessageId.isSome → m.transport ≠ .ntfy → Accepted m.id tr

/-- What the objects the send loop is about to commit rest on. -/
def SendRecord (cfg : Settings) (tr : List Action) : SendLoop.Pc → Prop
  | .acknowledged o => Acknowledged o.loaded.id tr
  | .finishing o =>
    (∃ message permanent now,
      o.current = SendLoop.recordFailure cfg message permanent now o.loaded ∧
        o.loaded.attempts + 1 ≤ failures o.loaded.id tr ∧
        (permanent = true → Rejected o.loaded.id tr)) ∨
    ∃ pid now, o.current = SendLoop.markSent pid now o.loaded ∧ Accepted o.loaded.id tr
  | _ => True

/-- Everything the relay knows about outcomes is in the trace. -/
structure Recorded (cfg : Settings) (tr : List Action) (s : Sys) : Prop where
  row : ∀ m ∈ s.db.messages, m.direction = .outbound → RowRecord cfg tr m
  send : SendRecord cfg tr s.send
  status : ∀ o ∈ s.status.objs, Accepted o.loaded.id tr ∧
    (o.current.status = .failed → PolledFailed o.loaded.id tr)

/-- A record stays true as the trace grows. -/
theorem RowRecord.snoc {cfg : Settings} {tr : List Action} {m : Message} {a : Action}
    (h : RowRecord cfg tr m) : RowRecord cfg (tr ++ [a]) m where
  attempts hq := Nat.le_trans (h.attempts hq) failures_le_snoc
  sent hs := (h.sent hs).snoc
  delivered hs := ⟨(h.delivered hs).1, (h.delivered hs).2.snoc⟩
  published hs := (h.published hs).snoc
  failed hs := by
    rcases h.failed hs with hrej | hfail | hpoll
    · exact .inl hrej.snoc
    · exact .inr (.inl (Int.le_trans hfail (Int.ofNat_le.mpr failures_le_snoc)))
    · exact .inr (.inr hpoll.snoc)
  providerId hpid ht := (h.providerId hpid ht).snoc

theorem SendRecord.snoc {cfg : Settings} {tr : List Action} {pc : SendLoop.Pc} {a : Action}
    (h : SendRecord cfg tr pc) : SendRecord cfg (tr ++ [a]) pc := by
  cases pc with
  | acknowledged o => exact Acknowledged.snoc h
  | finishing o =>
    rcases h with ⟨message, permanent, now, hcur, hle, hrej⟩ | ⟨pid, now, hcur, hacc⟩
    · exact .inl ⟨message, permanent, now, hcur, Nat.le_trans hle failures_le_snoc,
        fun hp => (hrej hp).snoc⟩
    · exact .inr ⟨pid, now, hcur, hacc.snoc⟩
  | _ => trivial

/-- The `updated_at` stamp is not part of a record. -/
theorem RowRecord.stamp {cfg : Settings} {tr : List Action} {m : Message}
    (h : RowRecord cfg tr m) (now : Time) : RowRecord cfg tr { m with updatedAt := now } where
  attempts := h.attempts
  sent := h.sent
  delivered := h.delivered
  published := h.published
  failed := h.failed
  providerId := h.providerId

/-! ## The runs in question -/

/-- The gateway answers nothing but 2xx below 400, and no receipt is committed to a row
    that was published. -/
def Truthful (s : Sys) : Action → Prop
  | .send (.providerReply _ (.gateway (.ok response)) _) =>
      response.statusCode < 400 → response.isSuccess = true
  | .inbound call (.commit _) => ∀ o ∈ (s.inbounds call).receiptObj,
      ∀ r ∈ s.db.messages, r.id = o.loaded.id → r.status ≠ .published
  | _ => True

/-- Of a row in the queue, only the attempts and the provider id are recorded. -/
theorem RowRecord.of_queue {cfg : Settings} {tr : List Action} {m : Message}
    (hs : m.status = .queued ∨ m.status = .sending) (hatt : m.attempts ≤ failures m.id tr)
    (hpid : m.providerMessageId.isSome → m.transport ≠ .ntfy → Accepted m.id tr) :
    RowRecord cfg tr m := by
  have hne : ∀ status, status ≠ .queued → status ≠ .sending → m.status ≠ status := by
    rintro status hqueued hsending rfl
    exact hs.elim hqueued hsending
  exact
    { attempts := fun _ => hatt
      sent := fun h => absurd h (hne _ (by decide) (by decide))
      delivered := fun h => absurd h (hne _ (by decide) (by decide))
      published := fun h => absurd h (hne _ (by decide) (by decide))
      failed := fun h => absurd h (hne _ (by decide) (by decide))
      providerId := hpid }

/-- What the trace has for a row with an outcome. -/
inductive OutcomeRecord (cfg : Settings) (tr : List Action) (m : Message) : Prop
  | sent : m.status = .sent → Accepted m.id tr → OutcomeRecord cfg tr m
  | delivered : m.status = .delivered → m.transport ≠ .ntfy → Accepted m.id tr →
      OutcomeRecord cfg tr m
  | published : m.status = .published → Acknowledged m.id tr → OutcomeRecord cfg tr m
  | failed : m.status = .failed → Rejected m.id tr ∨
      cfg.attemptBound ≤ failures m.id tr ∨ PolledFailed m.id tr → OutcomeRecord cfg tr m

/-- Of a row with an outcome, the outcome and the provider id are recorded. -/
theorem RowRecord.of_outcome {cfg : Settings} {tr : List Action} {m : Message}
    (h : OutcomeRecord cfg tr m)
    (hpid : m.providerMessageId.isSome → m.transport ≠ .ntfy → Accepted m.id tr) :
    RowRecord cfg tr m := by
  have hleft : m.LeftQueue := by
    cases h <;> exact ⟨by simp [*], by simp [*]⟩
  -- a row has one status, so the other records are about nothing
  have hother : ∀ {P : Prop} {status status' : MessageStatus}, m.status = status →
      status ≠ status' → m.status = status' → P := fun hs hne hs' =>
    absurd (hs.symm.trans hs') hne
  have hqueue : ¬ m.LeftQueue → m.attempts ≤ failures m.id tr := fun hq => absurd hleft hq
  cases h with
  | sent hs hacc =>
    exact ⟨hqueue, fun _ => hacc, hother hs (by decide), hother hs (by decide),
      hother hs (by decide), hpid⟩
  | delivered hs ht hacc =>
    exact ⟨hqueue, hother hs (by decide), fun _ => ⟨ht, hacc⟩, hother hs (by decide),
      hother hs (by decide), hpid⟩
  | published hs hack =>
    exact ⟨hqueue, hother hs (by decide), hother hs (by decide), fun _ => hack,
      hother hs (by decide), hpid⟩
  | failed hs hcause =>
    exact ⟨hqueue, hother hs (by decide), hother hs (by decide), hother hs (by decide),
      fun _ => hcause, hpid⟩

/-- The row that the send loop is about to finish rests on the answer it has heard. -/
theorem RowRecord.of_finishing {cfg : Settings} {tr : List Action} {s : Sys} (hi : Inv cfg s)
    {o : Tracked Message} (hpc : s.send = .finishing o) (hknown : SendRecord cfg tr s.send) :
    RowRecord cfg tr o.current := by
  have hsend := hi.send
  rw [hpc] at hsend hknown
  obtain ⟨hmem, hs, -, -⟩ := hsend
  have hpid := ((hi.row _ hmem).1.pending (.inr hs)).2.1
  -- a failure was recorded, or the gateway has accepted the message
  rcases hknown with ⟨message, permanent, now, hcur, hle, hrej⟩ | ⟨pid, now, hcur, hacc⟩
  · obtain ⟨hatt, -, hpid', -, hstatus⟩ :=
      recordFailure_cases cfg message permanent now o.loaded
    have hid := Message.id_eq_of_content
      (recordFailure_content cfg message permanent now o.loaded)
    have hnone : (SendLoop.recordFailure cfg message permanent now o.loaded).providerMessageId =
        none := hpid'.trans hpid
    rw [hcur]
    rcases hstatus with ⟨hf, hcause⟩ | ⟨hf, -⟩
    · -- the message has failed: for good, or with its last attempt
      refine .of_outcome (.failed hf ?_) fun hsome => by rw [hnone] at hsome; cases hsome
      rw [hid]
      rcases hcause with hperm | hmax
      · exact .inl (hrej hperm)
      · refine .inr (.inl ?_)
        unfold Settings.attemptBound
        omega
    · refine .of_queue (.inl hf) (by rw [hatt, hid]; exact hle) fun hsome => ?_
      rw [hnone] at hsome
      cases hsome
  · rw [hcur]
    exact .of_outcome (.sent rfl hacc) fun _ _ => hacc

/-- The row of an object the send loop commits rests on what the loop knows. -/
theorem RowRecord.of_sendObj {cfg : Settings} {tr : List Action} {s : Sys} (hi : Inv cfg s)
    (hr : Recorded cfg tr s) {o : Tracked Message} (ho : o ∈ s.send.objs)
    (hdir : o.loaded.direction = .outbound) : RowRecord cfg tr o.current := by
  have hsend := hi.send
  have hknown := hr.send
  have hfinishing := fun o hpc => RowRecord.of_finishing (o := o) hi hpc hknown
  generalize s.send = pc at ho hsend hknown hfinishing
  -- Requeue, claim and fallback leave the row in the queue; the others give it its outcome
  cases pc with
  | requeueing objs =>
    obtain ⟨hmem, hs, now, hcur⟩ := hsend.2 o ho
    have h := hr.row _ hmem hdir
    rw [hcur]
    exact .of_queue (.inl rfl) (h.attempts fun hleft => hleft.2 hs) h.providerId
  | claimed o' =>
    obtain rfl := List.mem_singleton.mp ho
    obtain ⟨hmem, hdue, now, hcur⟩ := hsend
    have h := hr.row _ hmem hdir
    have hs : o.loaded.status = .queued := by
      simp only [SendLoop.isDue, Bool.and_eq_true, decide_eq_true_eq] at hdue
      exact hdue.1.2
    rw [hcur]
    exact .of_queue (.inr rfl) (h.attempts fun hleft => hleft.1 hs) h.providerId
  | fellBack o' =>
    obtain rfl := List.mem_singleton.mp ho
    obtain ⟨hmem, hs, -, hcur⟩ := hsend
    have h := hr.row _ hmem hdir
    have hpid := ((hi.row _ hmem).1.pending (.inr hs)).2.1
    rw [hcur]
    refine .of_queue (.inr hs) (h.attempts fun hleft => hleft.2 hs) fun hsome => ?_
    rw [SendLoop.fallBack, hpid] at hsome
    cases hsome
  | acknowledged o' =>
    obtain rfl := List.mem_singleton.mp ho
    obtain ⟨hmem, hs, ht, receipt, now, hcur⟩ := hsend
    rw [hcur]
    exact .of_outcome (.published rfl hknown) fun _ hnot => absurd ht hnot
  | finishing o' =>
    obtain rfl := List.mem_singleton.mp ho
    exact hfinishing o rfl
  | _ => cases ho

/-! ## The rows of the next state -/

/-- A row of the next state rests on the trace, whichever commit it comes from. -/
theorem Recorded.row_step {lib : Lib} {cfg : Settings} {tr : List Action} {s t : Sys}
    {a : Action} (hr : Recorded cfg tr s) (hi : Inv cfg s) (h : Trans lib cfg s a t)
    (htruth : Truthful s a) {m : Message} (hm : m ∈ t.db.messages)
    (hdir : m.direction = .outbound) : RowRecord cfg tr m := by
  rcases rows_origin hi h hm with ⟨r, hrow, rfl | hcause⟩ | ⟨c, -, hrow, -⟩
  · exact hr.row _ hrow hdir
  · have hframe := (hcause.change hi hrow).frame
    have hold := hr.row r hrow ((Message.direction_eq_of_content hframe).symm.trans hdir)
    cases hcause with
    | @send o now stamp ho hloaded =>
      subst hloaded
      exact (RowRecord.of_sendObj hi hr ho
        ((Message.direction_eq_of_content hframe).symm.trans hdir)).stamp _
    | @poll objs o now hpc ho hdirty hid =>
      -- the poll has reported that the message was delivered, or has failed
      have ho' : o ∈ s.status.objs := by rw [hpc]; exact ho
      obtain ⟨hpolled, -, htracks⟩ := hi.status o ho'
      obtain ⟨hacc, hfailed⟩ := hr.status o ho'
      have hposted := hpolled.posted.evolved (htracks r hrow hid.symm)
      rw [hid] at hacc hfailed
      rcases (hpolled.current_eq hdirty).2 with hs | hs
      · exact .of_outcome (.delivered hs hposted.transport hacc) fun _ _ => hacc
      · exact .of_outcome (.failed hs (.inr (.inr (hfailed hs)))) fun _ _ => hacc
    | @receipt call o now hpc hdirty hid =>
      obtain ⟨-, hpid, hleft, -, htracks⟩ := hi.receipt call o (by rw [hpc]; rfl)
      have hpid' : r.providerMessageId.isSome := by
        rw [frozen_evolved hleft (htracks r hrow hid.symm)]
        exact hpid
      -- a receipt finds a row by its provider id, which a published row does not have
      have hnot : r.transport ≠ .ntfy := by
        intro ht
        have hrowInv := (hi.row r hrow).1
        have hleft' := leftQueue_evolved hleft (htracks r hrow hid.symm)
        cases hs : r.status with
        | queued => exact hleft'.1 hs
        | sending => exact hleft'.2 hs
        | sent => exact (hrowInv.sent hs).2.transport ht
        | delivered => exact (hold.delivered hs).1 ht
        | failed => exact (hrowInv.failed hs).2.1 ht
        | published => exact htruth o (by rw [hpc]; rfl) r hrow hid.symm hs
        | received =>
          have hinbound := hrowInv.received hs
          rw [show r.direction = .outbound from
            (Message.direction_eq_of_content hframe).symm.trans hdir] at hinbound
          cases hinbound
      have hacc := hold.providerId hpid' hnot
      exact .of_outcome (.delivered rfl hnot hacc) fun _ _ => hacc
  -- the row is new
  · obtain ⟨⟨hinv, hdir', hatt, hnew⟩, -⟩ := hi.call_row c m hrow
    have hqueued := hnew (hdir'.symm.trans hdir)
    have hpid := (hinv.pending (.inl hqueued)).2.1
    refine .of_queue (.inl hqueued) (by rw [hatt]; exact Nat.zero_le _) fun hsome => ?_
    rw [hpid] at hsome
    cases hsome

/-! ## The answers -/

/-- What the send loop commits after a failed attempt, when its error can be bound. -/
theorem sendRecord_providerError {lib : Lib} {cfg : Settings} {tr : List Action} {m : Message}
    {message : PyStr} {permanent : Bool} {now : Time}
    (hatt : m.attempts + 1 ≤ failures m.id tr) (hperm : permanent = true → Rejected m.id tr) :
    SendRecord cfg tr
      (SendLoop.afterSend lib cfg m now (.error (.providerError message permanent))) := by
  unfold SendLoop.afterSend
  dsimp only
  split
  · exact .inl ⟨_, _, now, rfl, hatt, hperm⟩
  · trivial

/-- What the send loop commits after an answer of the gateway. -/
theorem sendRecord_afterSend {lib : Lib} {cfg : Settings} {tr : List Action} {s : Sys}
    {m : Message} {reply : ProviderReply} {now : Time} {result : Except PyError SendResult}
    (hprov : cfg.provider = .androidGateway)
    (htruth : Truthful s (.send (.providerReply m.id reply now)))
    (hatt : m.attempts ≤ failures m.id tr)
    (hresult : providerSend cfg.provider reply = some result) :
    SendRecord cfg (tr ++ [.send (.providerReply m.id reply now)])
      (SendLoop.afterSend lib cfg m now result) := by
  rw [hprov] at hresult
  cases reply with
  | file written => cases hresult
  | gateway reply =>
    obtain rfl := Option.some.inj hresult
    have hlast : ∀ {a : Action}, a ∈ tr ++ [a] :=
      List.mem_append_right _ (List.mem_singleton.mpr rfl)
    cases reply with
    | error e =>
      -- only `httpx.HTTPError` is caught
      cases e with
      | httpError text =>
        refine sendRecord_providerError ?_ fun h => by cases h
        rw [failures_snoc]
        simpa [Action.isFailure] using hatt
      | timeout | valueError | other => trivial
    | ok response =>
      simp only [AndroidGatewayProvider.send]
      split
      · next hge =>
        split
        · trivial
        · refine sendRecord_providerError ?_ fun hperm => ⟨response, now, hlast, hge, ?_⟩
          · rw [failures_snoc]
            simpa [Action.isFailure, hge] using hatt
          · simpa using hperm
      · next hlt =>
        -- an answer below 400 is a success, and is recorded as sent
        have hacc : Accepted m.id
            (tr ++ [.send (.providerReply m.id (.gateway (.ok response)) now)]) :=
          ⟨_, hlast, by simpa [Action.accepts] using htruth (by omega)⟩
        have hok : ∀ result : Except PyError SendResult,
            (∀ message permanent, result ≠ .error (.providerError message permanent)) →
            SendRecord cfg (tr ++ [.send (.providerReply m.id (.gateway (.ok response)) now)])
              (SendLoop.afterSend lib cfg m now result) := by
          intro result hnot
          unfold SendLoop.afterSend
          split
          · split
            · next pid _ => exact .inr ⟨pid, now, rfl, hacc⟩
            · trivial
          · next message permanent => exact absurd rfl (hnot message permanent)
          · trivial
        refine hok _ fun message permanent heq => ?_
        split at heq
        · next body _ =>
          unfold getOfDict at heq
          split at heq <;> simp [Except.map] at heq
        · cases heq
        · cases heq

/-- What the send loop commits after an answer of ntfy. -/
theorem sendRecord_afterPublish {cfg : Settings} {tr : List Action} {m : Message}
    {reply : HttpReply} {now : Time} :
    SendRecord cfg (tr ++ [.send (.publishReply m.id reply now)])
      (SendLoop.afterPublish m reply now) := by
  -- A receipt means that ntfy has answered with a message event and an id
  unfold SendLoop.afterPublish
  split
  · next receipt hpub =>
    split
    · unfold SmsRelay.publish at hpub
      split at hpub
      · cases hpub
      · next response =>
        split at hpub
        · cases hpub
        · next hsuccess =>
          split at hpub
          · next body hjson =>
            unfold receiptId at hpub
            split at hpub
            · next items =>
              split at hpub
              · next id hevent hid =>
                exact ⟨response, now, items, id,
                  List.mem_append_right _ (List.mem_singleton.mpr rfl),
                  by simpa using hsuccess, hjson, hevent, hid⟩
              · cases hpub
            · cases hpub
          · cases hpub
    · trivial
  · split <;> trivial

/-- A string read from a body comes from an object. -/
theorem getOfDict_str {body : Json PyStr} {key : String} {value : PyStr}
    (h : getOfDict body key = .ok (.str value)) :
    ∃ items, body = .obj items ∧ Json.get items key = .str value := by
  unfold getOfDict Json.or at h
  split at h
  · next items heq =>
    rw [Except.ok.injEq] at h
    split at heq
    · exact ⟨items, heq, h⟩
    · -- a falsy body is read as `{}`, which has no string
      obtain rfl : [] = items := by injection heq
      cases h
  · cases h

theorem stateMap_failed {state : Json PyStr}
    (h : AndroidGatewayProvider.stateMap state = .ok (some .failed)) : state = .str "Failed" := by
  unfold AndroidGatewayProvider.stateMap at h
  split at h <;> first | rfl | cases h

/-- The only answer that makes a poll report a failure. -/
theorem fetchStatus_failed {reply : ProviderReply}
    (h : providerFetchStatus .androidGateway reply = some (.ok (some .failed))) :
    ∃ response items, reply = .gateway (.ok response) ∧ response.isSuccess = true ∧
      response.json = .ok (.obj items) ∧ Json.get items "state" = .str "Failed" := by
  -- Of all answers, only a success with `Failed` in its body reports a failure
  cases reply with
  | file => cases h
  | gateway reply =>
    simp only [providerFetchStatus, Option.some.injEq] at h
    unfold AndroidGatewayProvider.fetchStatus at h
    split at h
    · cases h
    · cases h
    · cases h
    · next response =>
      split at h
      · cases h
      · split at h
        · cases h
        · next hsuccess =>
          split at h
          · next body hjson =>
            cases hget : getOfDict body "state" with
            | error e => simp [hget, Except.bind] at h
            | ok state =>
              simp only [hget, Except.bind] at h
              obtain rfl := stateMap_failed h
              obtain ⟨items, rfl, hstate⟩ := getOfDict_str hget
              exact ⟨response, items, rfl, by simpa using hsuccess, hjson, hstate⟩
          · cases h
          · cases h

/-! ## Every run -/

/-- The send loop's knowledge after one of its own steps. -/
theorem Recorded.send_step {lib : Lib} {cfg : Settings} {tr : List Action} {s : Sys}
    {a : SendLoop.Act} {db : Store} {pc : SendLoop.Pc} (hprov : cfg.provider = .androidGateway)
    (hr : Recorded cfg tr s) (hi : Inv cfg s) (htruth : Truthful s (.send a))
    (h : SendLoop.Trans lib cfg s.db s.send a db pc) :
    SendRecord cfg (tr ++ [.send a]) pc := by
  have hsend := hi.send
  generalize s.send = pc₀ at h hsend
  -- Only the two answers tell the loop something
  cases h with
  | requeueNone | requeueSome | requeued | claimNone | claimSome | publish | acknowledged
    | fellBack | providerSend | finishing | dbError => trivial
  | claimed =>
    unfold SendLoop.afterClaim
    split <;> trivial
  | publishReply => exact sendRecord_afterPublish
  | @providerReply m reply now result hresult =>
    obtain ⟨hm, hs, -⟩ := hsend
    have hdir := ((hi.row m hm).1.pending (.inr hs)).1
    exact sendRecord_afterSend hprov htruth
      ((hr.row m hm hdir).attempts fun hleft => hleft.2 hs) hresult

/-- What the status loop's objects rest on after one of its own steps. -/
theorem Recorded.status_step {cfg : Settings} {tr : List Action} {s : Sys}
    {a : StatusLoop.Act} {db : Store} {pc : StatusLoop.Pc}
    (hprov : cfg.provider = .androidGateway) (hr : Recorded cfg tr s) (hi : Inv cfg s)
    (h : StatusLoop.Trans cfg s.db s.status a db pc) :
    ∀ o ∈ pc.objs, Accepted o.loaded.id (tr ++ [.status a]) ∧
      (o.current.status = .failed → PolledFailed o.loaded.id (tr ++ [.status a])) := by
  have hold := hr.status
  generalize s.status = pc₀ at h hold
  intro o ho
  cases h with
  | escaped | commit | dbError => exact absurd ho List.not_mem_nil
  | @select now =>
    obtain ⟨m, hm, rfl⟩ := List.mem_map.mp ((StatusLoop.objs_resume_sublist [] _).subset ho)
    obtain ⟨hpolled, -⟩ := hi.polled_load hm
    have hs : m.status = .sent := hpolled.sent
    have hrec := hr.row m (List.mem_filter.mp hm).1 hpolled.posted.outbound
    refine ⟨(hrec.sent hs).snoc, fun hf => ?_⟩
    rw [show (Tracked.load m).current.status = .sent from hs] at hf
    cases hf
  | @fetched done m rest reply status hstatus =>
    replace ho := (StatusLoop.objs_resume_sublist _ rest).subset ho
    simp only [List.append_assoc, List.singleton_append, List.mem_append, List.mem_cons] at ho
    have hkeep : ∀ o ∈ (StatusLoop.Pc.polling done m rest).objs,
        Accepted o.loaded.id (tr ++ [.status (.fetched m.id reply)]) ∧
          (o.current.status = .failed →
            PolledFailed o.loaded.id (tr ++ [.status (.fetched m.id reply)])) := fun o ho =>
      ⟨(hold o ho).1.snoc, fun hf => ((hold o ho).2 hf).snoc⟩
    rcases ho with ho | rfl | ho
    · exact hkeep o (by simp [StatusLoop.Pc.objs, ho])
    · obtain ⟨hacc, hfailed⟩ := hkeep (Tracked.load m) (by simp [StatusLoop.Pc.objs])
      refine ⟨hacc, fun hf => ?_⟩
      -- the poll may have reported nothing
      cases status with
      | none => exact hfailed hf
      | some status =>
        obtain rfl : status = .failed := hf
        rw [hprov] at hstatus
        obtain ⟨response, items, rfl, hsuccess, hjson, hstate⟩ := fetchStatus_failed hstatus
        exact ⟨response, items, List.mem_append_right _ (List.mem_singleton.mpr rfl), hsuccess,
          hjson, hstate⟩
    · refine hkeep o ?_
      simp only [StatusLoop.Pc.objs, List.map_cons, List.mem_append, List.mem_cons]
      exact .inr (.inr ho)

/-- **The records are kept by every truthful step of every party.** -/
theorem recorded_step {lib : Lib} {cfg : Settings} {tr : List Action} {s t : Sys} {a : Action}
    (hprov : cfg.provider = .androidGateway) (hr : Recorded cfg tr s) (hi : Inv cfg s)
    (hstep : Step lib cfg s a t) (htruth : Truthful s a) : Recorded cfg (tr ++ [a]) t := by
  obtain ⟨-, h⟩ := trans_of_step hstep
  refine
    { row := fun m hm hdir => (hr.row_step hi h htruth hm hdir).snoc
      send := ?_
      status := ?_ }
  · cases h with
    | send h => exact hr.send_step hprov hi htruth h
    | crash => trivial
    | status | fanout | prune | sendMessage | inbound | configure => exact hr.send.snoc
  · have hold : ∀ o ∈ s.status.objs, Accepted o.loaded.id (tr ++ [a]) ∧
        (o.current.status = .failed → PolledFailed o.loaded.id (tr ++ [a])) := fun o ho =>
      ⟨(hr.status o ho).1.snoc, fun hf => ((hr.status o ho).2 hf).snoc⟩
    -- a crash ends both loops, and with them what they know
    cases h with
    | status h => exact hr.status_step hprov hi h
    | crash => exact fun _ ho => absurd ho List.not_mem_nil
    | send | fanout | prune | sendMessage | inbound | configure => exact hold

/-- A new deployment has recorded nothing. -/
theorem recorded_init (cfg : Settings) (env : Env) : Recorded cfg [] (Sys.init env) where
  row _ hm := absurd hm List.not_mem_nil
  send := trivial
  status _ ho := absurd ho List.not_mem_nil

variable {lib : Lib} {cfg : Settings} {env : Env} {tr : List Action} {t : Sys}

theorem recorded_run (hprov : cfg.provider = .androidGateway)
    (hrun : Transition.Run (Guarded Truthful (Step lib cfg)) (Sys.init env) tr t) :
    Recorded cfg tr t :=
  hrun.traceInvariant (P := Recorded cfg) (recorded_init cfg env)
    fun _ _ _ _ hrun hr h => recorded_step hprov hr (inv_reachable hrun.unguard) h.2 h.1

/-- What a trace has to contain for the outcome a row records. -/
structure Justified (cfg : Settings) (tr : List Action) (m : Message) : Prop where
  sent : m.status = .sent ∨ m.status = .delivered →
    m.transport = .sms ∨ m.transport = .smsFallback → Accepted m.id tr
  published : m.status = .published → Acknowledged m.id tr
  failed : m.status = .failed → Rejected m.id tr ∨
    max 1 cfg.maxAttempts ≤ failures m.id tr ∨ PolledFailed m.id tr
  other : (m.status = .queued ∨ m.status = .sending) ∨
    ((m.status = .sent ∨ m.status = .delivered) ∧
      (m.transport = .sms ∨ m.transport = .smsFallback)) ∨
    m.status = .published ∨ m.status = .failed

/-- The records justify every outcome. -/
theorem RowRecord.justified {cfg : Settings} {tr : List Action} {m : Message}
    (h : RowRecord cfg tr m) (hrow : RowInv cfg m) (hdir : m.direction = .outbound) :
    Justified cfg tr m where
  sent hs _ := by
    rcases hs with hs | hs
    · exact h.sent hs
    · exact (h.delivered hs).2
  published := h.published
  failed := h.failed
  other := by
    -- the five outcomes an outbound row can have
    cases hs : m.status with
    | queued => exact .inl (.inl rfl)
    | sending => exact .inl (.inr rfl)
    | sent => exact .inr (.inl ⟨.inl rfl, sms_of_not_ntfy (hrow.sent hs).2.transport⟩)
    | delivered => exact .inr (.inl ⟨.inr rfl, sms_of_not_ntfy (h.delivered hs).1⟩)
    | failed => exact .inr (.inr (.inr rfl))
    | published => exact .inr (.inr (.inl rfl))
    | received =>
      have hinbound := hrow.received hs
      rw [hdir] at hinbound
      cases hinbound

/-- **Every recorded outcome is justified**, over crashes, lost commits and retries, as
    long as the gateway answers nothing but 2xx below 400 and no receipt is committed to
    a published message. -/
theorem outcomes_justified (hprov : cfg.provider = .androidGateway)
    (hrun : Transition.Run (Guarded Truthful (Step lib cfg)) (Sys.init env) tr t) :
    ∀ m ∈ t.db.messages, m.direction = .outbound → Justified cfg tr m :=
  fun m hm hdir => ((recorded_run hprov hrun).row m hm hdir).justified
    ((inv_reachable hrun.unguard).row m hm).1 hdir

/-- A retried message is recorded as sent because its second `POST` was accepted. -/
theorem outcomes_justified_retried : ∃ t,
    Run Sample.lib Sample.cfg (Sys.init Sample.env) Sample.retried t ∧
    Sample.statuses t = [("m1", .sent)] ∧
    ∀ m ∈ t.db.messages, m.direction = .outbound → Justified Sample.cfg Sample.retried m := by
  obtain ⟨t, hrun, hrows⟩ : ∃ t,
      Run Sample.lib Sample.cfg (Sys.init Sample.env) Sample.retried t ∧
      Sample.statuses t = [("m1", .sent)] := run_of_exec_map (by decide +kernel)
  have hguard := hrun.guard (P := fun a => ∀ s, Truthful s a) (by
    simp [Sample.retried, Sample.queue, Sample.post, Sample.answer, Truthful,
      Response.isSuccess])
  exact ⟨t, hrun, hrows,
    outcomes_justified rfl (hguard.mono fun _ _ _ h => ⟨h.1 _, h.2⟩)⟩

namespace Sample

/-- The gateway, or whatever answers in its place, redirects the `POST`. -/
def redirected : List Action :=
  queue "m1" 0 ++ post "m1" 1 ++ [answer "m1" 302 none 2, .send (.commit 2)]

end Sample

/-- The promise, of every run. -/
def OutcomesJustified (lib : Lib) (cfg : Settings) (env : Env) : Prop :=
  ∀ tr t, Run lib cfg (Sys.init env) tr t →
    ∀ m ∈ t.db.messages, m.direction = .outbound → Justified cfg tr m

/-- A redirect is recorded as sent, and nothing was accepted. -/
theorem not_outcomesJustified_redirect :
    ¬ OutcomesJustified Sample.lib Sample.cfg Sample.env := by
  intro hclaim
  obtain ⟨t, hrun, hrows⟩ : ∃ t,
      Run Sample.lib Sample.cfg (Sys.init Sample.env) Sample.redirected t ∧
      (t.db.messages.map fun m => (m.id, m.direction, m.status, m.transport)) =
        [("m1", .outbound, .sent, .sms)] :=
    run_of_exec_map (f := fun t : Sys =>
      t.db.messages.map fun m => (m.id, m.direction, m.status, m.transport)) (by decide +kernel)
  obtain ⟨m, hm, heq⟩ := List.mem_map.mp
    (show ("m1", .outbound, .sent, .sms) ∈
      t.db.messages.map fun m => (m.id, m.direction, m.status, m.transport) by
        rw [hrows]; exact List.mem_singleton.mpr rfl)
  simp only [Prod.mk.injEq] at heq
  obtain ⟨b, hb, hacc⟩ := (hclaim _ t hrun m hm heq.2.1).sent (.inl heq.2.2.1) (.inl heq.2.2.2)
  rw [heq.1] at hacc
  have hnone : ∀ b ∈ Sample.redirected, b.accepts "m1" = false := by decide +kernel
  rw [hnone b hb] at hacc
  cases hacc

end SmsRelay
