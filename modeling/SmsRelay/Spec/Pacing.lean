import Mathlib
import SmsRelay.ForStd.Timing
import SmsRelay.Spec.Fanout
import SmsRelay.Spec.Handover
import SmsRelay.Spec.Sends

/-!
# The pace of the retries

A failed attempt is committed with the time from which its row is due again.  The row
stays as it was committed until the loop selects it past that time, whatever the other
parties and the process do, so no attempt comes earlier.

## Key results

- `attempts_counted`: a row that will be tried again knows how many attempts have failed
- `sendPaced_of_queued`, `postPaced_of_pending`: no attempt before the due time
- `retry_paced`: what follows a failed attempt, of a message and of a delivery
-/

namespace SmsRelay

open UnitOfWork Transition

/-- What a step reads of the clock. -/
def Action.readings : Action → List Time
  | .send (.requeueSelect now stamp) => [now, stamp]
  | .send (.claimSelect now _) => [now]
  | .send (.publishReply _ _ now) => [now]
  | .send (.providerReply _ _ now) => [now]
  | .send (.commit now) => [now]
  | .status (.select now) => [now]
  | .status (.commit now) => [now]
  | .fanout (.select now _) => [now]
  | .fanout (.get _ now) => [now]
  | .fanout (.posted _ _ now) => [now]
  | .fanout (.commit now) => [now]
  | .prune now => [now]
  | .sendMessage _ (.create _ now) => [now]
  | .inbound _ (.flush _ now) => [now]
  | .inbound _ (.enqueue _ now) => [now]
  | .inbound _ (.commit now) => [now]
  | _ => []

/-! ## Attempts that have failed -/

/-- The step commits a failed attempt of the message. -/
def commitsFailure (id : String) (s : Sys) : Action → Bool
  | .send (.commit _) =>
    match s.send with
    | .finishing o =>
      o.loaded.id = id && (o.current.status = .queued || o.current.status = .failed)
    | _ => false
  | _ => false

/-- The step commits a failed attempt of the delivery. -/
def commitsDeliveryFailure (id : String) (s : Sys) : Action → Bool
  | .fanout (.commit _) => s.fanout.handled.any fun o =>
      o.loaded.id = id && (o.current.status = .pending || o.current.status = .failed)
  | _ => false

/-- The committed failed attempts of a message, in a run of a new deployment. -/
def sendFailures (lib : Lib) (cfg : Settings) (env : Env) (id : String) (tr : List Action) : Nat :=
  countSteps (step lib cfg) (commitsFailure id) (Sys.init env) tr

/-- The committed failed attempts of a delivery, in a run of a new deployment. -/
def deliveryFailures (lib : Lib) (cfg : Settings) (env : Env) (id : String)
    (tr : List Action) : Nat :=
  countSteps (step lib cfg) (commitsDeliveryFailure id) (Sys.init env) tr

/-- The rows that will be tried again know how many attempts have failed. -/
structure AttemptsCounted (lib : Lib) (cfg : Settings) (env : Env) (tr : List Action)
    (s : Sys) : Prop where
  message : ∀ m ∈ s.db.messages, ¬ m.LeftQueue → m.attempts = sendFailures lib cfg env m.id tr
  settled : ∀ id, 0 < sendFailures lib cfg env id tr → s.Settled id
  delivery : ∀ d ∈ s.db.deliveries, d.status = .pending →
    d.attempts = deliveryFailures lib cfg env d.id tr
  deliverySettled : ∀ id, 0 < deliveryFailures lib cfg env id tr → s.DeliverySettled id

section
variable {lib : Lib} {cfg : Settings} {env : Env} {s t : Sys} {tr : List Action} {a : Action}

/-- Only a commit of the send loop counts. -/
theorem commitsFailure_eq_true {id : String} (h : commitsFailure id s a = true) :
    ∃ now o, a = .send (.commit now) ∧ s.send = .finishing o ∧ o.loaded.id = id ∧
      (o.current.status = .queued ∨ o.current.status = .failed) := by
  unfold commitsFailure at h
  split at h
  · next now =>
    split at h
    · next o hpc =>
      simp only [Bool.and_eq_true, Bool.or_eq_true, decide_eq_true_eq] at h
      exact ⟨now, o, rfl, hpc, h.1, h.2⟩
    · cases h
  · cases h

/-- Only a commit of a batch counts. -/
theorem commitsDeliveryFailure_eq_true {id : String}
    (h : commitsDeliveryFailure id s a = true) :
    ∃ now, a = .fanout (.commit now) ∧ ∃ o ∈ s.fanout.handled, o.loaded.id = id ∧
      (o.current.status = .pending ∨ o.current.status = .failed) := by
  unfold commitsDeliveryFailure at h
  split at h
  · next now =>
    obtain ⟨o, ho, hcond⟩ := List.any_eq_true.mp h
    simp only [Bool.and_eq_true, Bool.or_eq_true, decide_eq_true_eq] at hcond
    exact ⟨now, rfl, o, ho, hcond⟩
  · cases h

/-- The commit of the outcome of an attempt ends the iteration. -/
theorem commit_finishing {o : Tracked Message} {now : Time} (hpc : s.send = .finishing o)
    (h : Trans lib cfg s (.send (.commit now)) t) :
    s.db.updateMessages now s.send.objs = some t.db ∧ t.send = .idle := by
  cases h with
  | send h =>
    rw [hpc] at h ⊢
    cases h with
    | finishing hdb => exact ⟨hdb, rfl⟩

/-- The outcome of an attempt counts it. -/
theorem SendInv.attempts_finishing {db : Store} {o : Tracked Message}
    (h : SendInv cfg db (.finishing o)) : o.current.attempts = o.loaded.attempts + 1 := by
  rcases h.2.2.2 with ⟨message, permanent, now, hcur⟩ | ⟨pid, now, hcur⟩
  · rw [hcur]
    exact (recordFailure_cases cfg message permanent now o.loaded).1
  · rw [hcur]
    rfl

/-- A row in the queue that the send loop has just written counts its attempts. -/
theorem attempts_commit {o : Tracked Message} {stamp : Time} (hi : Inv cfg s)
    (ho : o ∈ s.send.objs) (hq : ¬ o.current.LeftQueue)
    (hnot : commitsFailure o.loaded.id s (.send (.commit stamp)) = false) :
    o.current.attempts = o.loaded.attempts := by
  refine hi.send.attempts_eq (fun o' hpc => ?_) o ho
  -- the outcome of an attempt that leaves the row in the queue would count
  have hsend := hi.send
  rw [hpc] at ho hsend
  obtain rfl := List.mem_singleton.mp ho
  simp only [commitsFailure, hpc, decide_true, Bool.true_and, Bool.or_eq_false_iff,
    decide_eq_false_iff_not] at hnot
  rcases hsend.2.2.2 with ⟨message, permanent, now, hcur⟩ | ⟨pid, now, hcur⟩
  · rw [hcur] at hnot
    rcases (recordFailure_cases cfg message permanent now o.loaded).2.2.2.2 with
      ⟨hs, -⟩ | ⟨hs, -⟩
    · exact hnot.2 hs
    · exact hnot.1 hs
  · exact hq (hcur ▸ ⟨nofun, nofun⟩)

/-- Attempts of the messages after one more step. -/
theorem AttemptsCounted.message_step (hc : AttemptsCounted lib cfg env tr s)
    (hrun : Run lib cfg (Sys.init env) tr s) (hstep : Step lib cfg s a t) {m : Message}
    (hm : m ∈ t.db.messages) (hq : ¬ m.LeftQueue) :
    m.attempts = sendFailures lib cfg env m.id (tr ++ [a]) := by
  have hi := inv_reachable hrun
  obtain ⟨-, h⟩ := trans_of_step hstep
  rw [sendFailures, countSteps_snoc hrun]
  cases hcount : commitsFailure m.id s a with
  | true =>
    -- the row is the object of a failed attempt
    obtain ⟨now, o, rfl, hpc, hid, hs⟩ := commitsFailure_eq_true hcount
    have hsend : SendInv cfg s.db (.finishing o) := hpc ▸ hi.send
    have hattempts := hsend.attempts_finishing
    obtain ⟨hmem, hloaded, -⟩ := hsend
    have hold := hc.message o.loaded hmem fun hleft => hleft.2 hloaded
    have ho : o ∈ s.send.objs := by rw [hpc]; exact List.mem_singleton.mpr rfl
    have hrow := hi.send.eq_saved ho (commit_finishing hpc h).1 hm hid.symm
    rw [← hid, if_pos rfl, hrow, saved_eq]
    show o.current.attempts = sendFailures lib cfg env o.loaded.id tr + 1
    rw [hattempts, hold]
  | false =>
    rcases rows_origin hi h hm with ⟨r, hr, rfl | hcause⟩ | ⟨c, -, hrow, -⟩
    · exact hc.message _ hr hq
    · by_cases ha : ∀ b, a ≠ .send b
      · -- polls and receipts leave the queue alone
        exact absurd (leftQueue_change (hcause.leftQueue hi hr ha) (hcause.change hi hr)) hq
      · cases hcause with
        | @send o now stamp ho hloaded =>
          subst hloaded
          have hid : o.current.id = o.loaded.id := hi.send.keepsKeys o ho
          have heq := attempts_commit hi ho hq (by rw [← hid]; exact hcount)
          have hleft : ¬ o.loaded.LeftQueue := fun hleft =>
            not_or.mpr hleft (hi.send.objs.2 o ho).2.inQueue
          show o.current.attempts = _
          rw [heq, hc.message _ hr hleft, ← hid]
          rfl
        | poll | receipt => exact absurd (fun _ h => by cases h) ha
    · -- nothing has been sent of a row that a call is about to commit
      have hzero : sendFailures lib cfg env m.id tr = 0 := by
        by_contra hne
        exact (hc.settled m.id (Nat.pos_of_ne_zero hne)).2 c ⟨m, hrow, rfl⟩
      rw [((hi.call_row c m hrow).1.2).2.1]
      exact hzero.symm

/-- The ids of failed attempts after one more step. -/
theorem AttemptsCounted.settled_step (hc : AttemptsCounted lib cfg env tr s)
    (hrun : Run lib cfg (Sys.init env) tr s) (hstep : Step lib cfg s a t) {id : String}
    (hpos : 0 < sendFailures lib cfg env id (tr ++ [a])) : t.Settled id := by
  have hi := inv_reachable hrun
  obtain ⟨hfresh, h⟩ := trans_of_step hstep
  rcases countSteps_snoc_pos hrun hpos with hold | hcount
  · exact (hc.settled id hold).step hfresh h
  · -- the commit is of a row of the database
    obtain ⟨now, o, rfl, hpc, rfl, -⟩ := commitsFailure_eq_true hcount
    have hmem := (hi.send.objs.2 o (by rw [hpc]; exact List.mem_singleton.mpr rfl)).1
    exact (hi.row _ hmem).2.step hfresh h

/-! ### The deliveries -/

/-- A handled object is of the batch. -/
theorem FanoutLoop.Pc.loaded_mem_batch {pc : FanoutLoop.Pc} {o : Tracked WebhookDelivery}
    (ho : o ∈ pc.handled) : o.loaded ∈ pc.batch := by
  cases pc with
  | idle => cases ho
  | next | ready | posting => exact List.mem_append_left _ (List.mem_map_of_mem ho)

/-- An object that is still pending was attempted once more. -/
theorem FanoutLoop.Handled.attempts_eq {o : Tracked WebhookDelivery}
    (h : FanoutLoop.Handled o) (hs : o.current.status = .pending) :
    o.current.attempts = o.loaded.attempts + 1 := by
  have hout : Outcome o.loaded { o.current with updatedAt := o.loaded.updatedAt } := h
  rcases hout.changes with hne | hatt
  · exact absurd hs hne
  · exact hatt

/-- Attempts of the deliveries after one more step. -/
theorem AttemptsCounted.delivery_step (hc : AttemptsCounted lib cfg env tr s)
    (hrun : Run lib cfg (Sys.init env) tr s) (hi : FanInv s) (hstep : Step lib cfg s a t)
    {d : WebhookDelivery} (hd : d ∈ t.db.deliveries) (hs : d.status = .pending) :
    d.attempts = deliveryFailures lib cfg env d.id (tr ++ [a]) := by
  obtain ⟨-, h⟩ := trans_of_step hstep
  rw [deliveryFailures, countSteps_snoc hrun]
  cases deliveries_origin hi h hd with
  | kept hold hne =>
    have hcount : commitsDeliveryFailure d.id s a = false := by
      refine Bool.eq_false_iff.mpr fun hcount => ?_
      obtain ⟨now, ha, o, ho, hid, -⟩ := commitsDeliveryFailure_eq_true hcount
      exact hne now ha o ho hid.symm
    rw [hcount]
    exact hc.delivery d hold hs
  | @committed now ses o ha hpc ho hloaded heq =>
    subst ha
    have ho' : o ∈ s.fanout.handled := by rwa [hpc]
    have hcur : o.current.status = .pending := by
      rw [heq] at hs
      exact hs
    have hid : d.id = o.loaded.id := by
      rw [heq]
      exact WebhookDelivery.id_eq_of_content (hi.handled o ho').content
    have hcount : commitsDeliveryFailure o.loaded.id s (.fanout (.commit now)) = true := by
      simp only [commitsDeliveryFailure, List.any_eq_true]
      exact ⟨o, ho', by simp [hcur]⟩
    have hpending := (hi.standing o.loaded (FanoutLoop.Pc.loaded_mem_batch ho')).2.1
    rw [hid, hcount, if_pos rfl, heq]
    show o.current.attempts = _
    rw [(hi.handled o ho').attempts_eq hcur, hc.delivery o.loaded hloaded hpending]
    rfl
  | @inserted call now ha hcall _ =>
    subst ha
    obtain ⟨-, -, hzero⟩ := hi.call_row call d hcall
    have hnone : deliveryFailures lib cfg env d.id tr = 0 := by
      by_contra hne
      exact (hc.deliverySettled d.id (Nat.pos_of_ne_zero hne)).2 call d hcall rfl
    rw [hzero]
    exact hnone.symm

/-- The ids of failed attempts after one more step. -/
theorem AttemptsCounted.deliverySettled_step (hc : AttemptsCounted lib cfg env tr s)
    (hrun : Run lib cfg (Sys.init env) tr s) (hi : FanInv s) (hstep : Step lib cfg s a t)
    {id : String} (hpos : 0 < deliveryFailures lib cfg env id (tr ++ [a])) :
    t.DeliverySettled id := by
  obtain ⟨hfresh, h⟩ := trans_of_step hstep
  rcases countSteps_snoc_pos hrun hpos with hold | hcount
  · exact (hc.deliverySettled id hold).step hfresh h
  · -- the commit is of a row of the batch
    obtain ⟨now, rfl, o, ho, rfl, -⟩ := commitsDeliveryFailure_eq_true hcount
    have hstanding := (hi.standing o.loaded (FanoutLoop.Pc.loaded_mem_batch ho)).1
    exact hstanding.settled.step hfresh h

/-- **The rows know how many attempts have failed**, in every reachable state. -/
theorem attempts_counted (hrun : Run lib cfg (Sys.init env) tr s) :
    AttemptsCounted lib cfg env tr s := by
  refine hrun.traceInvariant (P := AttemptsCounted lib cfg env) ?_ ?_
  · -- a new deployment has no rows
    exact ⟨fun _ hm => absurd hm List.not_mem_nil, fun _ hpos => absurd hpos (Nat.lt_irrefl 0),
      fun _ hd => absurd hd List.not_mem_nil, fun _ hpos => absurd hpos (Nat.lt_irrefl 0)⟩
  · intro tr s a t hrun hc hstep
    have hi := fanInv_reachable hrun
    exact
      { message := fun m hm hq => hc.message_step hrun hstep hm hq
        settled := fun id hpos => hc.settled_step hrun hstep hpos
        delivery := fun d hd hs => hc.delivery_step hrun hi hstep hd hs
        deliverySettled := fun id hpos => hc.deliverySettled_step hrun hi hstep hpos }

end

/-! ## The readings of the backoff -/

/-- What `send_backoff` reads at the end of a call for the message. -/
def replyReading (id : String) : Action → Option Time
  | .send (.providerReply id' _ now) => if id' = id then some now else none
  | _ => none

/-- What `backoff` reads at the end of a `POST` of the delivery. -/
def postReading (id : String) : Action → Option Time
  | .fanout (.posted id' _ now) => if id' = id then some now else none
  | _ => none

/-- The due times that are about to be committed rest on the last readings. -/
structure RetryReadings (tr : List Action) (s : Sys) : Prop where
  reply : ∀ o, s.send = .finishing o → o.current.status = .queued →
    ∃ now, lastReading (replyReading o.loaded.id) tr = some now ∧
      o.current.nextAttemptAt = some (SendLoop.sendBackoff now o.current.attempts)
  post : ∀ o ∈ s.fanout.handled, o.current.status = .pending →
    ∃ now, lastReading (postReading o.loaded.id) tr = some now ∧
      o.current.nextAttemptAt = some (Webhooks.backoff now o.current.attempts)

section
variable {lib : Lib} {cfg : Settings} {env : Env} {s t : Sys} {tr : List Action} {a : Action}

/-- Only the answer of the provider leads to an outcome. -/
theorem SendLoop.Trans.finishing_cases {db db' : Store} {pc : Pc} {b : Act} {o : Tracked Message}
    (h : Trans lib cfg db pc b db' (.finishing o)) : ∃ reply now,
      b = .providerReply o.loaded.id reply now ∧
        ((∃ message permanent, o.current = recordFailure cfg message permanent now o.loaded) ∨
          ∃ result pid, SmsRelay.providerSend cfg.provider reply = some (.ok result) ∧
            lib.bindText result.providerMessageId = some pid ∧
              o.current = markSent pid now o.loaded) := by
  generalize hpc : Pc.finishing o = pc' at h
  cases h with
  | claimed =>
    unfold afterClaim at hpc
    split at hpc <;> cases hpc
  | publishReply =>
    unfold afterPublish at hpc
    split at hpc
    · split at hpc <;> cases hpc
    · split at hpc <;> cases hpc
  | providerReply hresult =>
    unfold afterSend at hpc
    split at hpc
    · split at hpc
      · cases hpc
        exact ⟨_, _, rfl, .inr ⟨_, _, hresult, ‹_›, rfl⟩⟩
      · cases hpc
    · split at hpc
      · cases hpc
        exact ⟨_, _, rfl, .inl ⟨_, _, rfl⟩⟩
      · cases hpc
    · cases hpc
  | _ => cases hpc

/-- A failed attempt that will be repeated is due after the backoff. -/
theorem recordFailure_due {message : String} {permanent : Bool} {now : Time} {m : Message}
    (hs : (SendLoop.recordFailure cfg message permanent now m).status = .queued) :
    (SendLoop.recordFailure cfg message permanent now m).nextAttemptAt =
      some (SendLoop.sendBackoff now (m.attempts + 1)) := by
  unfold SendLoop.recordFailure at hs ⊢
  dsimp only at hs ⊢
  split at hs
  · cases hs
  · next hnot => rw [if_neg hnot]

/-- The outcome in hand rests on the answer just heard. -/
theorem RetryReadings.reply_step (hk : RetryReadings tr s) (h : Trans lib cfg s a t)
    {o : Tracked Message} (hpc : t.send = .finishing o) (hs : o.current.status = .queued) :
    ∃ now, lastReading (replyReading o.loaded.id) (tr ++ [a]) = some now ∧
      o.current.nextAttemptAt = some (SendLoop.sendBackoff now o.current.attempts) := by
  have hother : t.send = s.send → replyReading o.loaded.id a = none → ∃ now,
      lastReading (replyReading o.loaded.id) (tr ++ [a]) = some now ∧
        o.current.nextAttemptAt = some (SendLoop.sendBackoff now o.current.attempts) := by
    intro hsend hnone
    rw [lastReading_snoc, hnone]
    exact hk.reply o (hsend.symm.trans hpc) hs
  cases h with
  | @send b db pc h =>
    obtain rfl : pc = .finishing o := hpc
    obtain ⟨reply, now, rfl, ⟨message, permanent, hcur⟩ | ⟨_, pid, -, -, hcur⟩⟩ :=
      h.finishing_cases
    · refine ⟨now, ?_, ?_⟩
      · rw [lastReading_snoc, replyReading, if_pos rfl]
        rfl
      · rw [hcur] at hs ⊢
        rw [recordFailure_due hs, (recordFailure_cases cfg message permanent now o.loaded).1]
    · rw [hcur] at hs
      cases hs
  | crash => cases hpc
  | status | fanout | prune | sendMessage | inbound | configure => exact hother rfl rfl

/-- A failed attempt that will be repeated is due after the backoff. -/
theorem conclude_due {d : WebhookDelivery} {c : Webhooks.Concluded} {reply : HttpReply}
    {now : Time} (h : Webhooks.conclude d reply now = .ok c) (hs : c.delivery.status = .pending) :
    c.delivery.nextAttemptAt = some (Webhooks.backoff now c.delivery.attempts) := by
  have hretry : ∀ x : WebhookDelivery, (Webhooks.retryOrFail now x).status = .pending →
      (Webhooks.retryOrFail now x).nextAttemptAt =
        some (Webhooks.backoff now (Webhooks.retryOrFail now x).attempts) := by
    intro x hx
    unfold Webhooks.retryOrFail at hx ⊢
    split at hx
    · cases hx
    · next hnot => rw [if_neg hnot]
  unfold Webhooks.conclude at h
  split at h
  · split at h
    · obtain rfl := Except.ok.inj h
      cases hs
    · split at h
      · cases h
      · obtain rfl := Except.ok.inj h
        exact hretry _ hs
  · obtain rfl := Except.ok.inj h
    exact hretry _ hs
  · cases h

/-- The objects of the batch rest on the answers heard in it. -/
theorem RetryReadings.post_step (hk : RetryReadings tr s) (hi : FanInv s)
    (h : Trans lib cfg s a t) {o : Tracked WebhookDelivery} (ho : o ∈ t.fanout.handled)
    (hs : o.current.status = .pending) :
    ∃ now, lastReading (postReading o.loaded.id) (tr ++ [a]) = some now ∧
      o.current.nextAttemptAt = some (Webhooks.backoff now o.current.attempts) := by
  have hnd := hi.nodup
  -- an object of before, when nothing is heard about its delivery
  have hold : ∀ o' ∈ s.fanout.handled, o.loaded = o'.loaded →
      o.current = { o'.current with updatedAt := o.current.updatedAt } →
      postReading o.loaded.id a = none →
      ∃ now, lastReading (postReading o.loaded.id) (tr ++ [a]) = some now ∧
        o.current.nextAttemptAt = some (Webhooks.backoff now o.current.attempts) := by
    intro o' ho' hloaded hcur hnone
    have hs' : o'.current.status = .pending := by
      rw [hcur] at hs
      exact hs
    obtain ⟨now, hlast, hdue⟩ := hk.post o' ho' hs'
    refine ⟨now, ?_, ?_⟩
    · rw [lastReading_snoc, hnone, hloaded]
      exact hlast
    · rw [hcur]
      exact hdue
  cases h with
  | @fanout b db pc h =>
    generalize hpc : s.fanout = pc₀ at h hold hnd
    cases h with
    | selectNone | stale | commit | dbError | select => cases ho
    | @get ses ses' d todo collected now message hget =>
      have hkept : ∀ o ∈ ses'.objs, ∃ o' ∈ ses.objs, o.loaded = o'.loaded ∧
          o.current = { o'.current with updatedAt := o.current.updatedAt } :=
        (FanoutLoop.getMessage_objs hget).2
      rcases FanoutLoop.handle_cases lib s.env ses' d message todo with
        ⟨hidle, -⟩ | ⟨d', -, hcancelled, hnext⟩ | ⟨m, request, -, hready⟩
      · rw [hidle] at ho
        cases ho
      · rw [hnext] at ho
        rcases List.mem_append.mp ho with ho | ho
        · obtain ⟨o', ho', hloaded, hcur⟩ := hkept o ho
          exact hold o' ho' hloaded hcur rfl
        · -- the new object is cancelled
          obtain rfl := List.mem_singleton.mp ho
          cases hcancelled.symm.trans hs
      · rw [hready] at ho
        obtain ⟨o', ho', hloaded, hcur⟩ := hkept o ho
        exact hold o' ho' hloaded hcur rfl
    | post => exact hold o ho rfl rfl rfl
    | @posted ses o' request todo reply now =>
      unfold FanoutLoop.afterPost at ho
      split at ho
      · cases ho
      · next c hconclude =>
        rcases List.mem_append.mp ho with ho | ho
        · -- the answer is about another delivery of the batch
          have hne : o.loaded.id ≠ o'.loaded.id :=
            (ne_of_nodup_batch hnd).1 o.loaded (List.mem_map_of_mem ho)
          exact hold o ho rfl rfl (if_neg hne.symm)
        · obtain rfl := List.mem_singleton.mp ho
          refine ⟨now, ?_, conclude_due hconclude hs⟩
          rw [lastReading_snoc, postReading, if_pos rfl]
          rfl
  | crash => cases ho
  | send | status | prune | sendMessage | inbound | configure => exact hold o ho rfl rfl rfl

/-- **The due times rest on the readings**, in every reachable state. -/
theorem retryReadings_reachable (hrun : Run lib cfg (Sys.init env) tr s) : RetryReadings tr s := by
  refine hrun.traceInvariant (P := RetryReadings) ?_ ?_
  · exact ⟨(fun _ hpc => by cases hpc), fun _ ho => absurd ho List.not_mem_nil⟩
  · intro tr s a t hrun hk hstep
    obtain ⟨-, h⟩ := trans_of_step hstep
    exact ⟨fun o hpc hs => hk.reply_step h hpc hs,
      fun o ho hs => hk.post_step (fanInv_reachable hrun) h ho hs⟩

end

/-! ## Until the due time -/

section
variable {lib : Lib} {cfg : Settings} {env : Env} {s t : Sys} {tr : List Action} {a : Action}
  {id : String} {due : Time}

/-- The message is in the queue and not in hand, and due from `due` on. -/
structure AwaitsRetry (cfg : Settings) (id : String) (due : Time) (s : Sys) : Prop where
  inv : Inv cfg s
  settled : s.Settled id
  row : ∀ m ∈ s.db.messages, m.id = id → m.status = .queued ∧ m.nextAttemptAt = some due
  not_held : id ∉ s.send.held

/-- The loop claims the message at or after `due`. -/
def ClaimsFrom (id : String) (due : Time) (a : Action) : Prop :=
  ∃ now, due ≤ now ∧ a = .send (.claimSelect now (some id))

/-- Only a claim past the due time ends the wait. -/
theorem AwaitsRetry.step (hw : AwaitsRetry cfg id due s) (hstep : Step lib cfg s a t) :
    ClaimsFrom id due a ∨ AwaitsRetry cfg id due t := by
  obtain ⟨hfresh, h⟩ := trans_of_step hstep
  have hi := hw.inv
  have hrow : ∀ m ∈ t.db.messages, m.id = id → m.status = .queued ∧ m.nextAttemptAt = some due := by
    intro m hm hid
    rcases rows_origin hi h hm with ⟨r, hr, rfl | hcause⟩ | ⟨c, -, hrow, -⟩
    · exact hw.row _ hr hid
    · have hrid : r.id = id :=
        (Message.id_eq_of_content (hcause.change hi hr).frame).symm.trans hid
      have hqueued := (hw.row r hr hrid).1
      by_cases ha : ∀ b, a ≠ .send b
      · exact absurd hqueued (hcause.leftQueue hi hr ha).1
      · cases hcause with
        | send ho hloaded =>
          -- the loop writes only what it holds
          subst hloaded
          exact absurd (hrid ▸ SendLoop.Pc.held_of_objs ho) hw.not_held
        | poll | receipt => exact absurd (fun _ h => by cases h) ha
    · exact absurd ⟨m, hrow, hid⟩ (hw.settled.2 c)
  have hkept : id ∉ t.send.held → ClaimsFrom id due a ∨ AwaitsRetry cfg id due t := fun hnot =>
    .inr ⟨inv_step hi hstep, hw.settled.step hfresh h, hrow, hnot⟩
  cases h with
  | @send b db pc h =>
    by_cases hheld : id ∈ pc.held
    · rcases h.held_cases hi.send hheld with hold | ⟨now, stamp, -, m, hm, hid, hstuck⟩ |
        ⟨now, rfl, m, hm, hid, hdue⟩
      · exact absurd hold hw.not_held
      · -- a queued row is not stuck
        simp only [SendLoop.isStuck, Bool.and_eq_true, decide_eq_true_eq] at hstuck
        have hqueued := (hw.row m hm hid).1
        rw [hstuck.1] at hqueued
        cases hqueued
      · simp only [SendLoop.isDue, (hw.row m hm hid).2, Bool.and_eq_true, decide_eq_true_eq]
          at hdue
        exact .inl ⟨now, hdue.2, rfl⟩
    · exact hkept hheld
  | crash => exact hkept List.not_mem_nil
  | status | fanout | prune | sendMessage | inbound | configure => exact hkept hw.not_held

/-- The provider is not called for a message that waits. -/
theorem AwaitsRetry.not_sent (hw : AwaitsRetry cfg id due s) (hstep : Step lib cfg s a t) :
    a ≠ .send (.providerSend id) := by
  rintro rfl
  obtain ⟨-, h⟩ := trans_of_step hstep
  cases h with
  | send h =>
    generalize hpc : s.send = pc at h
    cases h with
    | providerSend =>
      exact hw.not_held (by rw [hpc]; exact List.mem_singleton.mpr rfl)

/-- The delivery is pending and not of the batch, and due from `due` on. -/
structure AwaitsPost (cfg : Settings) (id : String) (due : Time) (s : Sys) : Prop where
  inv : Inv cfg s
  fan : FanInv s
  settled : s.DeliverySettled id
  row : ∀ d ∈ s.db.deliveries, d.id = id → d.status = .pending ∧ d.nextAttemptAt = some due
  not_held : ∀ d ∈ s.fanout.batch, d.id ≠ id

/-- A batch with the delivery is selected at or after `due`. -/
def SelectsFrom (id : String) (due : Time) (a : Action) : Prop :=
  ∃ now ids, due ≤ now ∧ id ∈ ids ∧ a = .fanout (.select now ids)

/-- Only a selection past the due time ends the wait. -/
theorem AwaitsPost.step (hw : AwaitsPost cfg id due s) (hstep : Step lib cfg s a t) :
    SelectsFrom id due a ∨ AwaitsPost cfg id due t := by
  obtain ⟨hfresh, h⟩ := trans_of_step hstep
  have hi := hw.fan
  have hrow : ∀ d ∈ t.db.deliveries, d.id = id →
      d.status = .pending ∧ d.nextAttemptAt = some due := by
    intro d hd hid
    cases deliveries_origin hi h hd with
    | kept hold _ => exact hw.row d hold hid
    | @committed now ses o _ hpc ho _ heq =>
      -- the batch writes only its own rows
      have ho' : o ∈ s.fanout.handled := by rwa [hpc]
      have hloaded : d.id = o.loaded.id := by
        rw [heq]
        exact WebhookDelivery.id_eq_of_content (hi.handled o ho').content
      exact absurd (hloaded.symm.trans hid)
        (hw.not_held o.loaded (FanoutLoop.Pc.loaded_mem_batch ho'))
    | inserted _ hcall _ => exact absurd hid (hw.settled.2 _ d hcall)
  have hkept : (∀ d ∈ t.fanout.batch, d.id ≠ id) →
      SelectsFrom id due a ∨ AwaitsPost cfg id due t := fun hnot =>
    .inr ⟨inv_step hw.inv hstep, fanInv_step hi hw.inv hstep, hw.settled.step hfresh h, hrow, hnot⟩
  have hnil : ∀ d ∈ FanoutLoop.Pc.idle.batch, d.id ≠ id := fun _ hd => absurd hd List.not_mem_nil
  cases h with
  | @fanout b db pc h =>
    by_cases hheld : ∀ d ∈ pc.batch, d.id ≠ id
    · exact hkept hheld
    · -- a row that the batch did not have before has been selected
      have hcurrent := hi.current
      have hbefore := hw.not_held
      generalize hpc : s.fanout = pc₀ at h hcurrent hbefore
      have hprogress := h.progress hcurrent
      cases h with
      | @select now batch hbatch =>
        simp only [FanoutLoop.Pc.batch, FanoutLoop.Session.fresh, List.map_nil,
          List.nil_append] at hheld
        push Not at hheld
        obtain ⟨d, hd, hid⟩ := hheld
        obtain ⟨hmem, hdue⟩ := List.mem_filter.mp (hbatch.mem_due d hd)
        simp only [FanoutLoop.isDue, (hw.row d hmem hid).2, Bool.and_eq_true,
          decide_eq_true_eq] at hdue
        exact .inl ⟨now, _, hdue.2, List.mem_map.mpr ⟨d, hd, hid⟩, rfl⟩
      | selectNone | stale | commit | dbError => exact absurd hnil hheld
      | get | post | posted =>
        cases hprogress with
        | rest hidle => exact absurd (hidle ▸ hnil) hheld
        | select _ hidle => cases hidle
        | advance hsame => exact absurd (hsame ▸ hbefore) hheld
  | crash => exact hkept hnil
  | send | status | prune | sendMessage | inbound | configure => exact hkept hw.not_held

/-- No subscriber is called for a delivery that waits. -/
theorem AwaitsPost.not_posted (hw : AwaitsPost cfg id due s) (hstep : Step lib cfg s a t) :
    a ≠ .fanout (.post id) := by
  rintro rfl
  obtain ⟨-, h⟩ := trans_of_step hstep
  have hbefore := hw.not_held
  cases h with
  | fanout h =>
    generalize hpc : s.fanout = pc at h hbefore
    cases h with
    | @post ses o request todo =>
      exact hbefore o.loaded (List.mem_append_right _ (List.mem_cons_self ..)) rfl

/-- From the state on, the message keeps its due time until it is claimed at or after it,
    and is not sent before. -/
def SendPaced (lib : Lib) (cfg : Settings) (s : Sys) (id : String) (due : Time) : Prop :=
  ∀ tr t, Run lib cfg s tr t →
    ((∀ a ∈ tr, ¬ ClaimsFrom id due a) → ∀ m ∈ t.db.messages, m.id = id →
      m.status = .queued ∧ m.nextAttemptAt = some due) ∧
    Preceded (ClaimsFrom id due) (· = .send (.providerSend id)) tr ∧
    ∀ time, Timing Action.readings tr time → ∀ i, tr[i]? = some (.send (.providerSend id)) →
      due ≤ time i

/-- From the state on, the delivery keeps its due time until it is selected at or after it,
    and is not posted before. -/
def PostPaced (lib : Lib) (cfg : Settings) (s : Sys) (id : String) (due : Time) : Prop :=
  ∀ tr t, Run lib cfg s tr t →
    ((∀ a ∈ tr, ¬ SelectsFrom id due a) → ∀ d ∈ t.db.deliveries, d.id = id →
      d.status = .pending ∧ d.nextAttemptAt = some due) ∧
    Preceded (SelectsFrom id due) (· = .fanout (.post id)) tr ∧
    ∀ time, Timing Action.readings tr time → ∀ i, tr[i]? = some (.fanout (.post id)) →
      due ≤ time i

/-- A message that waits is not sent early. -/
theorem AwaitsRetry.paced (hw : AwaitsRetry cfg id due s) : SendPaced lib cfg s id due := by
  intro tr t hrun
  have hreads : ∀ a, ClaimsFrom id due a → ∃ r ∈ Action.readings a, due ≤ r := by
    intro a hclaim
    obtain ⟨now, hdue, rfl⟩ := hclaim
    exact ⟨now, List.mem_singleton.mpr rfl, hdue⟩
  obtain ⟨hlast, hpreceded, htimed⟩ :=
    hrun.waits (Q := (· = .send (.providerSend id))) (fun _ _ _ hu huv => hu.step huv)
      (fun _ _ _ hu huv => hu.not_sent huv) hreads hw
  exact ⟨fun hnone => (hlast hnone).row, hpreceded, fun time ht i ha => htimed time ht i _ ha rfl⟩

/-- A delivery that waits is not posted early. -/
theorem AwaitsPost.paced (hw : AwaitsPost cfg id due s) : PostPaced lib cfg s id due := by
  intro tr t hrun
  have hreads : ∀ a, SelectsFrom id due a → ∃ r ∈ Action.readings a, due ≤ r := by
    intro a hselect
    obtain ⟨now, ids, hdue, -, rfl⟩ := hselect
    exact ⟨now, List.mem_singleton.mpr rfl, hdue⟩
  obtain ⟨hlast, hpreceded, htimed⟩ :=
    hrun.waits (Q := (· = .fanout (.post id))) (fun _ _ _ hu huv => hu.step huv)
      (fun _ _ _ hu huv => hu.not_posted huv) hreads hw
  exact ⟨fun hnone => (hlast hnone).row, hpreceded, fun time ht i ha => htimed time ht i _ ha rfl⟩

/-! ## After a failed attempt -/

/-- A committed failed attempt of a message that is tried again: what the row is due from,
    and which attempt it was. -/
theorem sendPaced_of_queued (hrun : Run lib cfg (Sys.init env) tr s) {o : Tracked Message}
    {now : Time} (hpc : s.send = .finishing o) (hs : o.current.status = .queued)
    (hstep : Step lib cfg s (.send (.commit now)) t) : ∃ k read,
      sendFailures lib cfg env o.loaded.id (tr ++ [.send (.commit now)]) = k + 1 ∧
      lastReading (replyReading o.loaded.id) tr = some read ∧
      SendPaced lib cfg t o.loaded.id (read + seconds (SendLoop.backoffSeconds (k + 1))) := by
  have hi := inv_reachable hrun
  obtain ⟨hfresh, h⟩ := trans_of_step hstep
  obtain ⟨hdb, hidle⟩ := commit_finishing hpc h
  have hsend : SendInv cfg s.db (.finishing o) := hpc ▸ hi.send
  have hattempts := hsend.attempts_finishing
  obtain ⟨hmem, hloaded, -⟩ := hsend
  obtain ⟨read, hread, hdue⟩ := (retryReadings_reachable hrun).reply o hpc hs
  have hcount : sendFailures lib cfg env o.loaded.id (tr ++ [.send (.commit now)]) =
      o.loaded.attempts + 1 := by
    have hcommits : commitsFailure o.loaded.id s (.send (.commit now)) = true := by
      simp [commitsFailure, hpc, hs]
    rw [(attempts_counted hrun).message o.loaded hmem fun hleft => hleft.2 hloaded, sendFailures,
      countSteps_snoc hrun, hcommits, if_pos rfl]
    rfl
  refine ⟨o.loaded.attempts, read, hcount, hread, AwaitsRetry.paced ?_⟩
  refine ⟨inv_step hi hstep, (hi.row _ hmem).2.step hfresh h, fun m hm hid => ?_, ?_⟩
  · -- the row is the object that was committed
    rw [hi.send.eq_saved (by rw [hpc]; exact List.mem_singleton.mpr rfl) hdb hm hid, saved_eq]
    exact ⟨hs, by rw [hdue, hattempts]; rfl⟩
  · rw [hidle]
    exact List.not_mem_nil

/-- The commit of a batch ends it. -/
theorem commit_batch {now : Time} (h : Trans lib cfg s (.fanout (.commit now)) t) :
    t.fanout = .idle ∧ ∃ ses, s.fanout = .next ses [] ∧
      s.db.updateDeliveries now ses.objs = some t.db := by
  cases h with
  | fanout h =>
    generalize s.fanout = pc at h
    cases h with
    | commit _ hdb => exact ⟨rfl, _, rfl, hdb⟩

/-- It leaves one row of a handled object's key: the object. -/
theorem FanInv.eq_committed (hi : FanInv s) {o : Tracked WebhookDelivery}
    (ho : o ∈ s.fanout.handled) {now : Time} (h : Trans lib cfg s (.fanout (.commit now)) t)
    {d : WebhookDelivery} (hd : d ∈ t.db.deliveries) (hid : d.id = o.loaded.id) :
    d = { o.current with updatedAt := d.updatedAt } := by
  cases deliveries_origin hi h hd with
  | kept _ hne => exact absurd hid (hne now rfl o ho)
  | @committed _ ses o' _ hpc ho' _ heq =>
    -- the objects of the batch have different keys
    have ho' : o' ∈ s.fanout.handled := by rwa [hpc]
    have hid' : o'.loaded.id = o.loaded.id := by
      rw [← hid, heq]
      exact (WebhookDelivery.id_eq_of_content (hi.handled o' ho').content).symm
    have hnd : (s.fanout.handled.map fun o => o.loaded.id).Nodup := by
      have hnd := hi.nodup
      rw [hpc, FanoutLoop.Pc.batch, List.append_nil, List.map_map] at hnd
      rw [hpc]
      exact hnd
    obtain rfl := List.inj_on_of_nodup_map hnd ho' ho hid'
    exact heq
  | inserted ha => cases ha

/-- A committed failed attempt of a delivery that is tried again. -/
theorem postPaced_of_pending (hrun : Run lib cfg (Sys.init env) tr s)
    {o : Tracked WebhookDelivery} {now : Time} (ho : o ∈ s.fanout.handled)
    (hs : o.current.status = .pending) (hstep : Step lib cfg s (.fanout (.commit now)) t) :
    ∃ k read,
      deliveryFailures lib cfg env o.loaded.id (tr ++ [.fanout (.commit now)]) = k + 1 ∧
      lastReading (postReading o.loaded.id) tr = some read ∧
      PostPaced lib cfg t o.loaded.id (read + seconds (Webhooks.backoffSeconds (k + 1))) := by
  have hi := fanInv_reachable hrun
  obtain ⟨hfresh, h⟩ := trans_of_step hstep
  have hbatch := FanoutLoop.Pc.loaded_mem_batch ho
  obtain ⟨hstanding, hpending, -⟩ := hi.standing o.loaded hbatch
  obtain ⟨read, hread, hdue⟩ := (retryReadings_reachable hrun).post o ho hs
  have hattempts := (hi.handled o ho).attempts_eq hs
  -- the commit has found the row of the object
  obtain ⟨hidle, ses, hpc, hdb⟩ := commit_batch h
  have hobjs : o ∈ ses.objs := by rwa [hpc] at ho
  have hmem : o.loaded ∈ s.db.deliveries := by
    obtain ⟨r, hr, hid⟩ := (Store.updateDeliveries_eq_some.mp hdb).1 o hobjs
      ((hi.handled o ho).dirty hpending)
    exact hstanding.row r hr hid ▸ hr
  have hcount : deliveryFailures lib cfg env o.loaded.id (tr ++ [.fanout (.commit now)]) =
      o.loaded.attempts + 1 := by
    have hcommits : commitsDeliveryFailure o.loaded.id s (.fanout (.commit now)) = true := by
      simp only [commitsDeliveryFailure, List.any_eq_true]
      exact ⟨o, ho, by simp [hs]⟩
    rw [(attempts_counted hrun).delivery o.loaded hmem hpending, deliveryFailures,
      countSteps_snoc hrun, hcommits, if_pos rfl]
    rfl
  refine ⟨o.loaded.attempts, read, hcount, hread, AwaitsPost.paced ?_⟩
  refine ⟨inv_step (inv_reachable hrun) hstep, fanInv_step hi (inv_reachable hrun) hstep,
    hstanding.settled.step hfresh h, fun d hd hid => ?_, ?_⟩
  · -- the row is the object that was committed
    rw [hi.eq_committed ho h hd hid]
    exact ⟨hs, by rw [← hattempts]; exact hdue⟩
  · rw [hidle]
    exact fun _ hd => absurd hd List.not_mem_nil

/-- The backoff of the send loop never gets shorter. -/
theorem SendLoop.backoffSeconds_mono : Monotone SendLoop.backoffSeconds := by
  intro k l h
  have hpow : (2 : Int) ^ (k - 1) ≤ 2 ^ (l - 1) :=
    mod_cast Nat.pow_le_pow_right Nat.zero_lt_two (Nat.sub_le_sub_right h 1)
  unfold SendLoop.backoffSeconds
  omega

/-- The backoff of the fan-out loop never gets shorter. -/
theorem Webhooks.backoffSeconds_mono : Monotone Webhooks.backoffSeconds := by
  intro k l h
  have hpow : (2 : Int) ^ (k - 1) ≤ 2 ^ (l - 1) :=
    mod_cast Nat.pow_le_pow_right Nat.zero_lt_two (Nat.sub_le_sub_right h 1)
  unfold Webhooks.backoffSeconds
  omega

/-- **What follows a failed attempt.**  The attempt with number `k + 1` of a message, or of a
    delivery, was committed for another try: whatever happens, that one does not come
    before the last reading of the clock and the delay. -/
theorem retry_paced (hrun : Run lib cfg (Sys.init env) tr s) :
    (∀ o now t, s.send = .finishing o → o.current.status = .queued →
      Step lib cfg s (.send (.commit now)) t → ∃ k read,
        sendFailures lib cfg env o.loaded.id (tr ++ [.send (.commit now)]) = k + 1 ∧
        lastReading (replyReading o.loaded.id) tr = some read ∧
        SendPaced lib cfg t o.loaded.id (read + seconds (min (30 * 2 ^ k) 900))) ∧
    (∀ o now t, o ∈ s.fanout.handled → o.current.status = .pending →
      Step lib cfg s (.fanout (.commit now)) t → ∃ k read,
        deliveryFailures lib cfg env o.loaded.id (tr ++ [.fanout (.commit now)]) = k + 1 ∧
        lastReading (postReading o.loaded.id) tr = some read ∧
        PostPaced lib cfg t o.loaded.id (read + seconds (min (30 * 2 ^ k) 3600))) ∧
    Monotone SendLoop.backoffSeconds ∧ Monotone Webhooks.backoffSeconds :=
  ⟨fun _ _ _ hpc hs hstep => sendPaced_of_queued hrun hpc hs hstep,
    fun _ _ _ ho hs hstep => postPaced_of_pending hrun ho hs hstep,
    SendLoop.backoffSeconds_mono, Webhooks.backoffSeconds_mono⟩

end

namespace Sample

/-- The gateway fails, and the loop is about to write it down. -/
def unavailable : List Action :=
  queue "m1" 0 ++ post "m1" 1 ++ [answer "m1" 503 none 2]

/-- The outcome the send loop is about to commit. -/
def outcome (s : Sys) : Option (String × MessageStatus) :=
  match s.send with
  | .finishing o => some (o.loaded.id, o.current.status)
  | _ => none

end Sample

/-- After one failed attempt, read at 2, the message waits until 30 seconds later. -/
theorem retry_paced_unavailable : ∃ s t,
    Run Sample.lib Sample.cfg (Sys.init Sample.env) Sample.unavailable s ∧
    Sample.outcome s = some ("m1", .queued) ∧
    Step Sample.lib Sample.cfg s (.send (.commit 3)) t ∧
    SendPaced Sample.lib Sample.cfg t "m1" (2 + seconds 30) := by
  obtain ⟨s, t, hrun, hlast, houtcome, -⟩ : ∃ s t,
      Run Sample.lib Sample.cfg (Sys.init Sample.env) Sample.unavailable s ∧
      Run Sample.lib Sample.cfg s [.send (.commit 3)] t ∧
      Sample.outcome s = some ("m1", .queued) ∧ Sample.outcome t = none :=
    run_of_exec_map₂ (by decide +kernel) (by decide +kernel)
  obtain ⟨u, hstep, hnil⟩ := hlast.cons_inv
  obtain rfl := hnil.nil_inv
  refine ⟨s, u, hrun, houtcome, hstep, ?_⟩
  unfold Sample.outcome at houtcome
  split at houtcome
  · next o hpc =>
    obtain ⟨hid, hs⟩ := Prod.mk.inj (Option.some.inj houtcome)
    obtain ⟨k, read, hcount, hread, hpaced⟩ := (retry_paced hrun).1 o 3 u hpc hs hstep
    rw [hid] at hcount hread hpaced
    have hone : sendFailures Sample.lib Sample.cfg Sample.env "m1"
        (Sample.unavailable ++ [.send (.commit 3)]) = 1 := by decide +kernel
    have htwo : lastReading (replyReading "m1") Sample.unavailable = some 2 := by decide +kernel
    obtain rfl : k = 0 := by omega
    obtain rfl : 2 = read := Option.some.inj (htwo.symm.trans hread)
    exact hpaced
  · cases houtcome

end SmsRelay
