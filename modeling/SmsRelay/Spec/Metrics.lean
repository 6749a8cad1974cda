import Mathlib
import SmsRelay.Native.Metrics
import SmsRelay.Spec.Timestamps
import SmsRelay.Spec.Provenance
import SmsRelay.Spec.Topics

/-!
# What the monitoring port tells

A count of failures is a count of rows, and a row tells the time of its last commit only.  For
a failed row that is the commit that made it failed: whatever comes later leaves the row as it
is, or takes it out of the status.  So the count is that of the messages whose failure was
written down within the hour, to the second.

## Key results

- `failed_step`: a step that leads to a failed row stamps it
- `failedAt_reachable`, `FailedAt.now_eq`: a failed row tells the time of its failure
- `smsFallback_iff`: the rows with the fallback transport are the messages that fell back
- `metrics_exact`: what the monitoring port tells, in every reachable state
- `collect_monitored`: it tells nothing else
-/

namespace SmsRelay

open Transition UnitOfWork

/-! ## When a message failed -/

/-- The clock that a commit stamps changed rows with. -/
def Action.commitsAt : Action → Option Time
  | .send (.commit now) => some now
  | .status (.commit now) => some now
  | .inbound _ (.commit now) => some now
  | _ => none

/-- The steps that leave the row in the database, as it is. -/
def Holds (lib : Lib) (cfg : Settings) (m : Message) (s : Sys) (a : Action) (t : Sys) : Prop :=
  Step lib cfg s a t ∧ m ∈ t.db.messages

/-- The step `a` from `s` to `u`, a commit at `now`, made the message fail, and its row is `m`
    from `u` on. -/
structure Failed (lib : Lib) (cfg : Settings) (env : Env) (m : Message) (now : Time)
    (tr₁ : List Action) (a : Action) (tr₂ : List Action) (s u t : Sys) : Prop where
  before : Run lib cfg (Sys.init env) tr₁ s
  commit : Step lib cfg s a u
  clock : a.commitsAt = some now
  other : ∃ r ∈ s.db.messages, r.id = m.id ∧ r.status ≠ .failed
  row : m ∈ u.db.messages
  since : Transition.Run (Holds lib cfg m) u tr₂ t

/-- Along the run `tr` to `t` a commit at `now` made the message fail, and its row is since
    then `m`. -/
def FailedAt (lib : Lib) (cfg : Settings) (env : Env) (tr : List Action) (t : Sys) (m : Message)
    (now : Time) : Prop :=
  m.status = .failed ∧ ∃ tr₁ a tr₂ s u, tr = tr₁ ++ a :: tr₂ ∧
    Failed lib cfg env m now tr₁ a tr₂ s u t

/-- What the status loop has in hand has not failed yet. -/
def Unfailed (s : Sys) : Prop :=
  ∀ o ∈ s.status.objs, ∀ r ∈ s.db.messages, r.id = o.loaded.id → r.status ≠ .failed

section
variable {lib : Lib} {cfg : Settings} {env : Env} {tr : List Action} {s t : Sys} {a : Action}
  {m r : Message} {now : Time}

/-- A failure that the send loop assigns is stamped by the flush. -/
private theorem saved_failure {o : Tracked Message} (now : Time)
    (hchange : SendChange cfg o.loaded o.current) (hs : o.current.status = .failed) :
    o.saved now = { o.current with updatedAt := now } := by
  obtain ⟨loaded, current⟩ := o
  dsimp only at hchange hs ⊢
  -- no other assignment makes a row fail
  cases hchange with
  | failure message permanent stamp hsending =>
    have hdirty : (⟨loaded, SendLoop.recordFailure cfg message permanent stamp loaded⟩ :
        Tracked Message).Dirty := by
      intro heq
      rw [show SendLoop.recordFailure cfg message permanent stamp loaded = loaded from heq,
        hsending] at hs
      cases hs
    have hstamp : (SendLoop.recordFailure cfg message permanent stamp loaded).updatedAt =
        loaded.updatedAt := by
      unfold SendLoop.recordFailure
      dsimp only
      split <;> rfl
    rw [Tracked.saved, if_pos hdirty, Message.update_current, onUpdate, if_pos hstamp]
  | fallBack hsending =>
    rw [show (SendLoop.fallBack loaded).status = loaded.status from rfl, hsending] at hs
    cases hs
  | requeue | claim | published | sent => cases hs

/-- A row that the send loop has in hand has not failed. -/
private theorem SendChange.not_failed {m' : Message} (h : SendChange cfg m m') :
    m.status ≠ .failed := by
  rcases h.inQueue with hs | hs <;> rw [hs] <;> decide

/-- The send loop stamps a row that it makes fail. -/
private theorem send_failed {b : SendLoop.Act} (hi : Inv cfg s) (h : Trans lib cfg s (.send b) t)
    (hr : r ∈ t.db.messages) (hs : r.status = .failed) :
    r ∈ s.db.messages ∨ ∃ r₀ ∈ s.db.messages, r₀.status ≠ .failed ∧ RowCause s r₀ (.send b) r ∧
      (Action.send b).commitsAt = some r.updatedAt := by
  cases h with
  | send h =>
    rcases h.db_cases with rfl | ⟨now, rfl, hdb⟩
    · exact .inl hr
    · rcases hi.send.mem_commit hdb hr with ⟨hold, -⟩ | ⟨o, ho, rfl⟩
      · exact .inl hold
      · obtain ⟨hloaded, hchange⟩ := hi.send.objs.2 o ho
        have heq := saved_failure now hchange ((saved_status now o).symm.trans hs)
        rw [heq]
        exact .inr ⟨o.loaded, hloaded, hchange.not_failed, .send ho rfl, rfl⟩

/-- **A step that leads to a failed row stamps it**, and the row had another status before. -/
theorem failed_step (hi : Inv cfg s) (hu : Unfailed s) (h : Trans lib cfg s a t)
    (hr : r ∈ t.db.messages) (hs : r.status = .failed) :
    r ∈ s.db.messages ∨ ∃ r₀ ∈ s.db.messages, r₀.status ≠ .failed ∧ RowCause s r₀ a r ∧
      a.commitsAt = some r.updatedAt := by
  rcases rows_origin hi h hr with ⟨r₀, hr₀, rfl | hcause⟩ | ⟨c, -, hrow, -⟩
  · exact .inl hr₀
  · cases hcause with
    | send => exact send_failed hi h hr hs
    | poll hpc ho hdirty hid =>
      exact .inr ⟨r₀, hr₀, hu _ (by rw [hpc]; exact ho) r₀ hr₀ hid.symm,
        .poll hpc ho hdirty hid, rfl⟩
    | receipt => cases hs
  · -- a new row has no attempts yet
    obtain ⟨⟨hinv, -, hattempts, -⟩, -⟩ := hi.call_row c r hrow
    have hpos := (hinv.failed hs).2.2.1
    omega

/-- What the status loop has in hand was handed over, and has not failed since. -/
theorem unfailed_step (hi : Inv cfg s) (hu : Unfailed s) (h : Trans lib cfg s a t) :
    Unfailed t := by
  intro o ho r hr hid hs
  rcases failed_step hi hu h hr hs with hold | ⟨r₀, hr₀, hs₀, hcause, -⟩
  · -- the row was there, so the loop has just read it
    cases h with
    | @status b db pc h =>
      generalize hpc : s.status = pc₀ at h
      cases h with
      | escaped | commit | dbError => cases ho
      | @select now =>
        have hsub := StatusLoop.objs_resume_sublist []
          (s.db.messages.filter (StatusLoop.isPolled now))
        obtain ⟨m, hm, rfl⟩ := List.mem_map.mp (hsub.subset ho)
        obtain ⟨hm, hpoll⟩ := List.mem_filter.mp hm
        obtain rfl := Store.eq_of_id hold hm hid
        simp [StatusLoop.isPolled, hs] at hpoll
      | @fetched done m rest reply status hstatus =>
        have hsub := StatusLoop.objs_resume_sublist
          (done ++ [(Tracked.load m).assign (StatusLoop.upgrade status)]) rest
        -- the object of the answer is for the row it was for before
        have hids : ∀ o' ∈ done ++ [(Tracked.load m).assign (StatusLoop.upgrade status)] ++
            rest.map Tracked.load, ∃ o₀ ∈ s.status.objs, o₀.loaded = o'.loaded := by
          intro o' ho'
          rw [hpc]
          simp only [StatusLoop.Pc.objs, List.map_cons, List.append_assoc, List.singleton_append,
            List.mem_append, List.mem_cons] at ho' ⊢
          rcases ho' with ho' | rfl | ho'
          · exact ⟨o', .inl ho', rfl⟩
          · exact ⟨Tracked.load m, .inr (.inl rfl), rfl⟩
          · exact ⟨o', .inr (.inr ho'), rfl⟩
        obtain ⟨o₀, ho₀, hloaded⟩ := hids o (hsub.subset ho)
        exact hu o₀ ho₀ r hold (hid.trans (by rw [hloaded])) hs
    | crash => cases ho
    | send | fanout | prune | sendMessage | inbound | configure => exact hu o ho r hold hid hs
  · have hid₀ : r₀.id = o.loaded.id :=
      (Message.id_eq_of_content (hcause.change hi hr₀).frame).symm.trans hid
    cases hcause with
    | @send o' now stamp ho' hloaded =>
      cases h with
      | send =>
        -- the send loop works on rows in the queue, and the status loop on rows that have left it
        obtain ⟨hpolled, -, htracks⟩ := hi.status o ho
        have hposted := hpolled.posted.evolved (htracks r₀ hr₀ hid₀)
        have hqueue := (hi.send.objs.2 o' ho').2.inQueue
        rw [hloaded] at hqueue
        exact hqueue.elim hposted.not_queued hposted.not_sending
    | poll =>
      cases h with
      | status h =>
        generalize s.status = pc₀ at h
        cases h with
        | commit => cases ho
    | receipt => cases hs

theorem unfailed_reachable (hrun : Run lib cfg (Sys.init env) tr t) : Unfailed t := by
  have hboth : Inv cfg t ∧ Unfailed t :=
    hrun.invariant (I := fun s => Inv cfg s ∧ Unfailed s)
      (fun _ _ _ h hstep => ⟨inv_step h.1 hstep, unfailed_step h.1 h.2 (trans_of_step hstep).2⟩)
      ⟨inv_init cfg env, fun _ ho => absurd ho List.not_mem_nil⟩
  exact hboth.2

/-- **A failed row tells the time of its failure**: there was a commit at that time, and the
    row is since then as it is. -/
theorem failedAt_reachable (hrun : Run lib cfg (Sys.init env) tr t) :
    ∀ m ∈ t.db.messages, m.status = .failed → FailedAt lib cfg env tr t m m.updatedAt := by
  induction hrun with
  | nil => exact fun _ hm => absurd hm List.not_mem_nil
  | @snoc tr s a t hrun hstep ih =>
    intro m hm hs
    have hi := inv_reachable hrun
    refine ⟨hs, ?_⟩
    rcases failed_step hi (unfailed_reachable hrun) (trans_of_step hstep).2 hm hs with
      hold | ⟨r₀, hr₀, hs₀, hcause, hclock⟩
    · obtain ⟨-, tr₁, b, tr₂, s₁, u, rfl, hfailed⟩ := ih m hold hs
      exact ⟨tr₁, b, tr₂ ++ [a], s₁, u, by simp, hfailed.before, hfailed.commit, hfailed.clock,
        hfailed.other, hfailed.row, hfailed.since.snoc ⟨hstep, hm⟩⟩
    · have hid := Message.id_eq_of_content (hcause.change hi hr₀).frame
      exact ⟨tr, a, [], s, t, rfl, hrun, hstep, hclock, ⟨r₀, hr₀, hid.symm, hs₀⟩, hm, .nil⟩

/-- **No other time is that of the failure.** -/
theorem FailedAt.now_eq (h : FailedAt lib cfg env tr t m now) : now = m.updatedAt := by
  obtain ⟨hs, tr₁, a, tr₂, s, u, -, hfailed⟩ := h
  have hi := inv_reachable hfailed.before
  obtain ⟨r, hr, hid, hother⟩ := hfailed.other
  rcases failed_step hi (unfailed_reachable hfailed.before) (trans_of_step hfailed.commit).2
    hfailed.row hs with hold | ⟨-, -, -, -, hclock⟩
  · obtain rfl := Store.eq_of_id hr hold hid
    exact absurd hs hother
  · exact Option.some.inj (hfailed.clock.symm.trans hclock)

end

/-! ## Messages that fell back -/

/-- Along the run a commit turned the message from a notification into a text message. -/
def FellBack (lib : Lib) (cfg : Settings) (env : Env) (tr : List Action) (m : Message) : Prop :=
  ∃ tr₁ a tr₂ s u, tr = tr₁ ++ a :: tr₂ ∧ Run lib cfg (Sys.init env) tr₁ s ∧
    Step lib cfg s a u ∧ (∃ r ∈ s.db.messages, r.id = m.id ∧ r.transport = .ntfy) ∧
    ∃ r ∈ u.db.messages, r.id = m.id ∧ r.transport = .smsFallback

/-- Along the run a call of `send_message` built the message, by the clock of its row. -/
def Queued (tr : List Action) (m : Message) : Prop :=
  ∃ call uuids, Action.sendMessage call (.create uuids m.createdAt) ∈ tr ∧ m.id ∈ uuids

section
variable {lib : Lib} {cfg : Settings} {env : Env} {tr : List Action} {s t : Sys} {a : Action}
  {m m' r : Message}

/-- The fallback is the only change of the transport. -/
theorem Change.transport_cases (h : Change cfg m m') :
    m'.transport = m.transport ∨ m.transport = .ntfy ∧ m'.transport = .smsFallback := by
  cases h with
  | send now h =>
    cases h with
    | fallBack hs ht => exact .inr ⟨ht, rfl⟩
    | failure message permanent stamp =>
      exact .inl (recordFailure_cases cfg message permanent stamp m).2.1
    | requeue | claim | published | sent => exact .inl rfl
  | poll | receipt => exact .inl rfl

/-- A message that fell back stays a text message. -/
theorem smsFallback_evolved (h : m.transport = .smsFallback) (he : Evolved cfg m m') :
    m'.transport = .smsFallback := by
  apply he.keeps (P := fun r => r.transport = .smsFallback) _ h
  intro r r' hr hchange
  rcases hchange.transport_cases with heq | ⟨hntfy, -⟩
  · exact heq.trans hr
  · rw [hr] at hntfy
    cases hntfy

/-- Only outbound messages have a topic. -/
private theorem outbound_of_smsFallback (hrun : Run lib cfg (Sys.init env) tr t)
    (hm : m ∈ t.db.messages) (h : m.transport = .smsFallback) : m.direction = .outbound := by
  cases hdir : m.direction with
  | outbound => rfl
  | inbound =>
    obtain ⟨event, now, number, r, -, -, hnew, hcontent⟩ :=
      (provenance_reachable hrun).stored m hm hdir
    have htopic := Message.topic_eq_of_content hcontent
    rw [(newMessage_inbound hnew).2.2.2.2.1] at htopic
    have hsms := ((inv_reachable hrun).row m hm).1.sms.mpr htopic
    rw [h] at hsms
    cases hsms

/-- **The rows with the fallback transport** are the messages that fell back. -/
theorem smsFallback_iff (hrun : Run lib cfg (Sys.init env) tr t) (hm : m ∈ t.db.messages) :
    m.transport = .smsFallback ↔ FellBack lib cfg env tr m := by
  constructor
  · intro h
    induction hrun generalizing m with
    | nil => exact absurd hm List.not_mem_nil
    | @snoc tr s a t hrun hstep ih =>
      have hi := inv_reachable hrun
      have hrun' := hrun.snoc hstep
      rcases rows_origin hi (trans_of_step hstep).2 hm with
        ⟨r, hr, hcause⟩ | ⟨c, -, hrow, -⟩
      · have hid : m.id = r.id ∧ (m.transport = r.transport ∨
            r.transport = .ntfy ∧ m.transport = .smsFallback) := by
          rcases hcause with rfl | hcause
          · exact ⟨rfl, .inl rfl⟩
          · have hchange := hcause.change hi hr
            exact ⟨Message.id_eq_of_content hchange.frame, hchange.transport_cases⟩
        obtain ⟨hid, hsame | ⟨hntfy, -⟩⟩ := hid
        · obtain ⟨tr₁, b, tr₂, s₁, u, rfl, hrest⟩ := ih hr (hsame.symm.trans h)
          rw [← hid] at hrest
          exact ⟨tr₁, b, tr₂ ++ [a], s₁, u, by simp, hrest⟩
        · exact ⟨tr, a, [], s, t, rfl, hrun, hstep, ⟨r, hr, hid.symm, hntfy⟩, m, hm, rfl, h⟩
      · -- a call never builds such a row
        have hout := outbound_of_smsFallback hrun' hm h
        cases c with
        | inl call =>
          obtain ⟨tr₁, tr₂, u, call, uuids, now, request, normalized, id, toNumber, topic, -, -, -,
            -, -, hnew⟩ := (born_reachable hrun).call call m hrow
          rw [hnew] at h
          cases topic <;> cases h
        | inr call =>
          rw [(hi.call_row _ m hrow).1.2.1] at hout
          cases hout
  · rintro ⟨tr₁, a, tr₂, s, u, rfl, hrun₁, hstep, -, r, hr, hid, hr'⟩
    have hrun₂ : Run lib cfg u tr₂ t := run_rest (by simpa using hrun) (hrun₁.snoc hstep)
    exact smsFallback_evolved hr'
      (evolved_run (inv_reachable (hrun₁.snoc hstep)) hrun₂ hr hm hid.symm)

/-- An outbound row tells when its message was queued. -/
theorem queued_reachable (hrun : Run lib cfg (Sys.init env) tr t) (hm : m ∈ t.db.messages)
    (hdir : m.direction = .outbound) : Queued tr m := by
  obtain ⟨r, ⟨tr₁, tr₂, u, call, uuids, now, request, normalized, id, toNumber, topic, rfl, -, -,
    hid, -, hnew⟩, hcontent⟩ := (born_reachable hrun).row m hm hdir
  rw [hnew] at hcontent
  have hcreated : m.createdAt = now := congrArg (·.2.2.2.2.2.2.2.2.2) hcontent
  have hmid : m.id = id := Message.id_eq_of_content hcontent
  exact ⟨call, uuids, by simp [hcreated], hmid ▸ hid⟩

end

/-! ## What the page says -/

section
variable {lib : Lib} {cfg : Settings} {env : Env} {tr : List Action} {t : Sys} {now : Time}
  {ρ : Type} [LinearOrder ρ] [Zero ρ] {age : Time → List Char → ρ}

open Metrics

/-- What the three statements of `collect` come to, in a state of the relay. -/
structure Exact (lib : Lib) (cfg : Settings) (env : Env) (tr : List Action) (t : Sys)
    (age : Time → List Char → ρ) (now : Time) : Prop where
  /-- Nothing waits, or the age is that of a message that waits longest. -/
  oldest : (t.db.messages.filter isPending = [] ∧ oldestPending age ⟨t.db, now⟩ = 0) ∨
    ∃ m ∈ t.db.messages.filter isPending,
      (∀ r ∈ t.db.messages.filter isPending, m.createdAt ≤ r.createdAt) ∧
      oldestPending age ⟨t.db, now⟩ = age now (storedText m.createdAt)
  failed_nodup : (failedLastHour ⟨t.db, now⟩).Nodup
  /-- The messages whose failure was committed within the hour. -/
  failed : ∀ m, m ∈ failedLastHour ⟨t.db, now⟩ ↔ m ∈ t.db.messages ∧
    ∃ at_, FailedAt lib cfg env tr t m at_ ∧ wholeSecond (now - seconds 3600) ≤ at_
  fallback_nodup : (fallbackLastHour ⟨t.db, now⟩).Nodup
  /-- The messages that were queued within the hour and fell back. -/
  fallback : ∀ m, m ∈ fallbackLastHour ⟨t.db, now⟩ ↔ m ∈ t.db.messages ∧
    FellBack lib cfg env tr m ∧ Queued tr m ∧ wholeSecond (now - seconds 3600) ≤ m.createdAt

/-- A time is recent when it is not before the second that began an hour ago. -/
theorem isRecent_iff {u : Time} (hnow : Dated (now - seconds 3600)) (hu : Dated u) :
    isRecent now u = true ↔ wholeSecond (now - seconds 3600) ≤ u := by
  rw [← not_lt_datetimeText_iff hnow hu]
  simp [isRecent]

/-- The largest of the ages is that of the oldest row. -/
private theorem oldestPending_cases (db : Store)
    (hdated : ∀ m ∈ db.messages, Dated m.createdAt)
    (hage : ∀ u u', Dated u → Dated u' → u ≤ u' →
      age now (storedText u') ≤ age now (storedText u)) :
    (db.messages.filter isPending = [] ∧ oldestPending age ⟨db, now⟩ = 0) ∨
      ∃ m ∈ db.messages.filter isPending,
        (∀ r ∈ db.messages.filter isPending, m.createdAt ≤ r.createdAt) ∧
        oldestPending age ⟨db, now⟩ = age now (storedText m.createdAt) := by
  by_cases hnil : db.messages.filter isPending = []
  · exact .inl ⟨hnil, by simp [oldestPending, hnil]⟩
  · obtain ⟨m, hm⟩ : ∃ m, m ∈ List.argmin Message.createdAt (db.messages.filter isPending) :=
      Option.isSome_iff_exists.mp
        (Option.isSome_iff_ne_none.mpr fun hnone => hnil (List.argmin_eq_none.mp hnone))
    have hmem := List.argmin_mem hm
    have hleast : ∀ r ∈ db.messages.filter isPending, m.createdAt ≤ r.createdAt :=
      fun r hr => List.le_of_mem_argmin hr hm
    have hrow : ∀ r ∈ db.messages.filter isPending, Dated r.createdAt :=
      fun r hr => hdated r (List.mem_filter.mp hr).1
    have hmax : ((db.messages.filter isPending).map fun r =>
        age now (storedText r.createdAt)).max? = some (age now (storedText m.createdAt)) := by
      apply List.max?_eq_some_iff.mpr
      refine ⟨List.mem_map_of_mem hmem, fun x hx => ?_⟩
      obtain ⟨r, hr, rfl⟩ := List.mem_map.mp hx
      exact hage _ _ (hrow m hmem) (hrow r hr) (hleast r hr)
    refine .inr ⟨m, hmem, hleast, ?_⟩
    rw [oldestPending, hmax]
    rfl

/-- The failures that are counted are the ones committed within the hour. -/
private theorem mem_failedLastHour (hrun : Run lib cfg (Sys.init env) tr t)
    (htimes : ∀ m ∈ t.db.messages, Dated m.createdAt ∧ Dated m.updatedAt)
    (hnow : Dated (now - seconds 3600)) (m : Message) :
    m ∈ failedLastHour ⟨t.db, now⟩ ↔ m ∈ t.db.messages ∧
      ∃ at_, FailedAt lib cfg env tr t m at_ ∧ wholeSecond (now - seconds 3600) ≤ at_ := by
  rw [failedLastHour, List.mem_filter]
  constructor
  · rintro ⟨hm, hcounted⟩
    simp only [Bool.and_eq_true, decide_eq_true_eq] at hcounted
    exact ⟨hm, m.updatedAt, failedAt_reachable hrun m hm hcounted.1.2,
      (isRecent_iff hnow (htimes m hm).2).mp hcounted.2⟩
  · rintro ⟨hm, at_, hat, hrecent⟩
    obtain rfl := hat.now_eq
    -- only outbound messages fail
    have hout := (((inv_reachable hrun).row m hm).1.failed hat.1).1
    simp [hm, hout, hat.1, (isRecent_iff hnow (htimes m hm).2).mpr hrecent]

/-- The fallbacks that are counted are those of the messages queued within the hour. -/
private theorem mem_fallbackLastHour (hrun : Run lib cfg (Sys.init env) tr t)
    (htimes : ∀ m ∈ t.db.messages, Dated m.createdAt ∧ Dated m.updatedAt)
    (hnow : Dated (now - seconds 3600)) (m : Message) :
    m ∈ fallbackLastHour ⟨t.db, now⟩ ↔ m ∈ t.db.messages ∧ FellBack lib cfg env tr m ∧
      Queued tr m ∧ wholeSecond (now - seconds 3600) ≤ m.createdAt := by
  rw [fallbackLastHour, List.mem_filter]
  constructor
  · rintro ⟨hm, hcounted⟩
    simp only [Bool.and_eq_true, decide_eq_true_eq] at hcounted
    exact ⟨hm, (smsFallback_iff hrun hm).mp hcounted.1,
      queued_reachable hrun hm (outbound_of_smsFallback hrun hm hcounted.1),
      (isRecent_iff hnow (htimes m hm).1).mp hcounted.2⟩
  · rintro ⟨hm, hfell, -, hrecent⟩
    simp [hm, (smsFallback_iff hrun hm).mpr hfell,
      (isRecent_iff hnow (htimes m hm).1).mpr hrecent]

/-- **What the monitoring port tells**, in every state of every run: the age of the oldest
    message that waits, and how many messages failed, and fell back, within the last hour. -/
theorem metrics_exact (hrun : Run lib cfg (Sys.init env) tr t)
    (hrows : ∀ u ∈ t.db.times, Dated u) (hnow : Dated (now - seconds 3600))
    (hage : ∀ u u', Dated u → Dated u' → u ≤ u' →
      age now (storedText u') ≤ age now (storedText u)) :
    Exact lib cfg env tr t age now := by
  have htimes : ∀ m ∈ t.db.messages, Dated m.createdAt ∧ Dated m.updatedAt := by
    intro m hm
    have hm' : ∀ u ∈ m.times, Dated u := fun u hu =>
      hrows u (List.mem_append_left _ (List.mem_flatMap.mpr ⟨m, hm, hu⟩))
    exact ⟨hm' _ (by simp [Message.times]), hm' _ (by simp [Message.times])⟩
  have hnodup : t.db.messages.Nodup := List.Nodup.of_map _ t.db.integrity.pkMessages
  constructor
  case oldest => exact oldestPending_cases t.db (fun m hm => (htimes m hm).1) hage
  case failed_nodup => exact hnodup.filter _
  case failed => exact mem_failedLastHour hrun htimes hnow
  case fallback_nodup => exact hnodup.filter _
  case fallback => exact mem_fallbackLastHour hrun htimes hnow

end

/-! ## What the page does not say -/

/-- The columns that the statements read. -/
def Message.monitored (m : Message) : Direction × MessageStatus × Transport × Time × Time :=
  (m.direction, m.status, m.transport, m.createdAt, m.updatedAt)

section
variable {ρ : Type} [LinearOrder ρ] [Zero ρ] {age : Time → List Char → ρ} {db db' : Store}

open Metrics

/-- Rows that agree in the columns a query reads are told apart by no other column. -/
private theorem map_filter_monitored {β : Type} {p : Message → Bool} {f : Message → β}
    (q : Direction × MessageStatus × Transport × Time × Time → Bool)
    (g : Direction × MessageStatus × Transport × Time × Time → β)
    (hp : ∀ m, p m = q m.monitored) (hf : ∀ m, f m = g m.monitored)
    (h : db.messages.map Message.monitored = db'.messages.map Message.monitored) :
    (db.messages.filter p).map f = (db'.messages.filter p).map f := by
  have hcolumns : ∀ ms : List Message,
      (ms.filter p).map f = ((ms.map Message.monitored).filter q).map g := by
    intro ms
    rw [List.filter_map, List.map_map, show p = q ∘ Message.monitored from funext hp,
      show f = g ∘ Message.monitored from funext hf]
  rw [hcolumns, hcolumns, h]

/-- **The page has no message data**: what it says is the same for all tables that agree in
    directions, statuses, transports and times. -/
theorem collect_monitored {repr : ρ → String} {db₂ db₂' db₃ db₃' : Store} (now now₂ now₃ : Time)
    (h : db.messages.map Message.monitored = db'.messages.map Message.monitored)
    (h₂ : db₂.messages.map Message.monitored = db₂'.messages.map Message.monitored)
    (h₃ : db₃.messages.map Message.monitored = db₃'.messages.map Message.monitored) :
    collect age repr ⟨db, now⟩ ⟨db₂, now₂⟩ ⟨db₃, now₃⟩ =
      collect age repr ⟨db', now⟩ ⟨db₂', now₂⟩ ⟨db₃', now₃⟩ := by
  have hages : oldestPending age ⟨db, now⟩ = oldestPending age ⟨db', now⟩ := by
    have hlists := map_filter_monitored (p := isPending)
      (f := fun m : Message => age now (storedText m.createdAt))
      (fun c => c.1 = .outbound && (c.2.1 = .queued || c.2.1 = .sending))
      (fun c => age now (storedText c.2.2.2.1)) (fun _ => rfl) (fun _ => rfl) h
    unfold oldestPending
    dsimp only
    rw [hlists]
  have hfailed : (failedLastHour ⟨db₂, now₂⟩).length = (failedLastHour ⟨db₂', now₂⟩).length := by
    have hlists := congrArg List.length (map_filter_monitored (f := fun _ => ())
      (fun c => c.1 = .outbound && c.2.1 = .failed && isRecent now₂ c.2.2.2.2) (fun _ => ())
      (fun _ => rfl) (fun _ => rfl) h₂)
    rw [List.length_map, List.length_map] at hlists
    exact hlists
  have hfallback : (fallbackLastHour ⟨db₃, now₃⟩).length =
      (fallbackLastHour ⟨db₃', now₃⟩).length := by
    have hlists := congrArg List.length (map_filter_monitored (f := fun _ => ())
      (fun c => c.2.2.1 = .smsFallback && isRecent now₃ c.2.2.2.1) (fun _ => ())
      (fun _ => rfl) (fun _ => rfl) h₃)
    rw [List.length_map, List.length_map] at hlists
    exact hlists
  unfold collect
  rw [hages, hfailed, hfallback]

end

namespace Sample

/-- A notification falls back, and the gateway rejects the text message. -/
def fellBackRejected : List Action :=
  fellBack ++ [answer "m1" 400 none 10, .send (.commit 11)]

/-- The age in whole seconds. -/
def ageSeconds (now : Time) (text : List Char) : Int := (now - loadedTime text) / 1000000

/-- The ids that a state is monitored with, and the times of its rows. -/
def monitored (now : Time) (s : Sys) : List String × List String × List Time :=
  ((Metrics.failedLastHour ⟨s.db, now⟩).map Message.id,
    (Metrics.fallbackLastHour ⟨s.db, now⟩).map Message.id, s.db.times)

end Sample

/-- The message is counted as a failure and as a fallback. -/
theorem metrics_exact_rejected : ∃ t,
    Run Sample.lib Sample.ntfyCfg (Sys.init Sample.ntfyEnv) Sample.fellBackRejected t ∧
    Sample.monitored (seconds 100) t = (["m1"], ["m1"], [0, 11, 0]) ∧
    Exact Sample.lib Sample.ntfyCfg Sample.ntfyEnv Sample.fellBackRejected t Sample.ageSeconds
      (seconds 100) := by
  obtain ⟨t, hrun, ht⟩ : ∃ t,
      Run Sample.lib Sample.ntfyCfg (Sys.init Sample.ntfyEnv) Sample.fellBackRejected t ∧
      Sample.monitored (seconds 100) t = (["m1"], ["m1"], [0, 11, 0]) :=
    run_of_exec_map (by decide +kernel)
  have htimes : t.db.times = [0, 11, 0] := congrArg (·.2.2) ht
  refine ⟨t, hrun, ht, metrics_exact hrun ?_ (dated_of_le (by decide) (by decide)) ?_⟩
  · rw [htimes]
    have hsmall : ∀ u ∈ ([0, 11, 0] : List Time), -days 719162 ≤ u ∧ u ≤ days 2900000 := by decide
    exact fun u hu => dated_of_le (hsmall u hu).1 (hsmall u hu).2
  · intro u u' hu hu' hle
    unfold Sample.ageSeconds
    rw [loadedTime_storedText hu, loadedTime_storedText hu']
    exact Int.ediv_le_ediv (by decide) (Int.sub_le_sub_left hle _)

end SmsRelay
