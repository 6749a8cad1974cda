import Mathlib.Algebra.Order.BigOperators.Group.List
import SmsRelay.Spec.Stranded
import SmsRelay.Spec.Terminal

/-!
# How often a due message is passed over

The send loop takes the oldest due message.  One that waits is passed over by older ones only,
and each of these has a bounded number of attempts, after which it is out of the way.  What
an iteration that is broken off had in hand keeps its attempt, so each such iteration may
cost the waiting message one more turn.

## Key results

- `waits_step`: a queued message stays as it is until it is claimed
- `attemptsBefore_step`: the attempts that older messages have left do not grow
- `claims_bounded`: how many claims pass over a due message
-/

namespace SmsRelay

open UnitOfWork Transition

/-! ## What goes before a message -/

/-- The row goes before `m` when both are due. -/
def Before (m r : Message) : Prop := r.id ≠ m.id ∧ r.createdAt ≤ m.createdAt

instance (m r : Message) : Decidable (Before m r) := inferInstanceAs (Decidable (_ ∧ _))

/-- The attempts that a row before `m` has left. -/
def attemptsLeft (cfg : Settings) (m r : Message) : Nat :=
  if Before m r ∧ (r.status = .queued ∨ r.status = .sending) then
    (cfg.attemptBound - r.attempts).toNat
  else 0

/-- The attempts that the rows before `m` have left. -/
def attemptsBefore (cfg : Settings) (m : Message) (db : Store) : Nat :=
  (db.messages.map (attemptsLeft cfg m)).sum

/-- Whether the send loop has a row before `m` in hand. -/
def busy (m : Message) (s : Sys) : Nat :=
  if ∃ r ∈ s.db.messages, s.send.inHand = some r.id ∧ Before m r then 1 else 0

/-- The send loop claims a message. -/
def Action.claims : Action → Bool
  | .send (.claimSelect _ (some _)) => true
  | _ => false

/-- An iteration with a message in hand may be broken off by the label. -/
def Action.breaksOff (cfg : Settings) : Action → Bool
  | .crash => true
  | .send .dbError => true
  | .send (.publishReply _ reply _) =>
    match publish reply with
    | .ok _ => false
    | .error e => !e.fallsBack
  | .send (.providerReply _ reply _) =>
    match providerSend cfg.provider reply with
    | some (.error (.providerError _ _)) => false
    | some (.error _) => true
    | _ => false
  | _ => false

/-- What a call of `send_message` commits is newer than `m`. -/
def Newer (m : Message) (s : Sys) (a : Action) : Prop :=
  ∀ call, a = .sendMessage call .commit →
    ∀ r ∈ (s.sendMessages call).rows, m.createdAt < r.createdAt

section
variable {lib : Lib} {cfg : Settings} {s t : Sys} {a : Action} {m r r' : Message} {id : String}

theorem breaksOff_of_abandons (h : Abandons cfg id a) : a.breaksOff cfg = true := by
  cases h with
  | crash | dbError => rfl
  | publishReply he hfalls => simp [Action.breaksOff, he, hfalls]
  | @providerReply reply now e he hother =>
    simp only [Action.breaksOff, he]

/-- The content of a row says whether it goes before `m`. -/
theorem before_of_content (h : r'.content = r.content) : Before m r' ↔ Before m r := by
  have hcreated : r'.createdAt = r.createdAt := congrArg (·.2.2.2.2.2.2.2.2.2) h
  unfold Before
  rw [Message.id_eq_of_content h, hcreated]

/-- A row in the queue has an attempt left. -/
theorem attemptsLeft_pos (hr : RowInv cfg r) (hbefore : Before m r)
    (hs : r.status = .queued ∨ r.status = .sending) : 1 ≤ attemptsLeft cfg m r := by
  rw [attemptsLeft, if_pos ⟨hbefore, hs⟩]
  have hlt := (hr.pending hs).2.2.2
  omega

/-- A row that has left the queue has none. -/
theorem attemptsLeft_of_status (status : MessageStatus) (hs : r.status = status)
    (hne : status ≠ .queued ∧ status ≠ .sending) : attemptsLeft cfg m r = 0 := by
  apply if_neg
  intro hin
  rcases hin.2 with hin | hin
  · exact hne.1 (hs.symm.trans hin)
  · exact hne.2 (hs.symm.trans hin)

/-- A change that leaves the attempts as they are. -/
private theorem attemptsLeft_same (hcontent : r'.content = r.content)
    (hattempts : r'.attempts = r.attempts) (hs : r.status = .queued ∨ r.status = .sending) :
    attemptsLeft cfg m r' ≤ attemptsLeft cfg m r := by
  unfold attemptsLeft
  by_cases hbefore : Before m r
  · rw [if_pos (show Before m r ∧ _ from ⟨hbefore, hs⟩), hattempts]
    split
    · exact Nat.le_refl _
    · exact Nat.zero_le _
  · rw [if_neg fun h : Before m r' ∧ _ => hbefore ((before_of_content hcontent).mp h.1)]
    exact Nat.zero_le _

/-- A recorded failure uses an attempt up. -/
private theorem attemptsLeft_failure {message : String} {permanent : Bool} {now : Time}
    (hr : RowInv cfg r) (hbefore : Before m r) (hs : r.status = .sending) :
    attemptsLeft cfg m (SendLoop.recordFailure cfg message permanent now r) + 1 ≤
      attemptsLeft cfg m r := by
  have hpos := attemptsLeft_pos hr hbefore (.inr hs)
  obtain ⟨hattempts, -, -, -, hout⟩ := recordFailure_cases cfg message permanent now r
  rcases hout with ⟨hfailed, -⟩ | ⟨hqueued, -, hlt⟩
  · rw [attemptsLeft_of_status .failed hfailed (by decide)]
    omega
  · have hbefore' := (before_of_content (recordFailure_content cfg message permanent now r)).mpr
      hbefore
    rw [attemptsLeft, if_pos ⟨hbefore', .inl hqueued⟩, attemptsLeft, if_pos ⟨hbefore, .inr hs⟩,
      hattempts]
    have hbound := cfg.maxAttempts_le_attemptBound
    omega

/-- **No change gives a row attempts back.** -/
theorem attemptsLeft_change (hr : RowInv cfg r) (h : Change cfg r r') :
    attemptsLeft cfg m r' ≤ attemptsLeft cfg m r := by
  cases h with
  | @send r' now h =>
    cases h with
    | requeue stamp hs => exact attemptsLeft_same rfl rfl (.inr hs)
    | claim stamp _ hs => exact attemptsLeft_same rfl rfl (.inl hs)
    | fallBack hs => exact attemptsLeft_same rfl rfl (.inr hs)
    | published =>
      rw [attemptsLeft_of_status .published rfl (by decide)]
      exact Nat.zero_le _
    | sent =>
      rw [attemptsLeft_of_status .sent rfl (by decide)]
      exact Nat.zero_le _
    | failure message permanent stamp hs =>
      show attemptsLeft cfg m (SendLoop.recordFailure cfg message permanent stamp r) ≤ _
      by_cases hbefore : Before m r
      · exact Nat.le_of_succ_le (attemptsLeft_failure hr hbefore hs)
      · rw [attemptsLeft, if_neg fun h => hbefore
          ((before_of_content (recordFailure_content cfg message permanent stamp r)).mp h.1)]
        exact Nat.zero_le _
  | poll status now _ hstatus =>
    rw [attemptsLeft_of_status status rfl (by rcases hstatus with rfl | rfl <;> decide)]
    exact Nat.zero_le _
  | receipt now =>
    rw [attemptsLeft_of_status .delivered rfl (by decide)]
    exact Nat.zero_le _

/-- What an iteration writes in the end uses an attempt of its row up. -/
private theorem attemptsLeft_outcome {o : Tracked Message} {stamp : Time} (hi : Inv cfg s)
    (hobjs : s.send.objs = [o]) (hhand : s.send.inHand = some o.loaded.id)
    (hne : o.current.status ≠ .sending) (hbefore : Before m o.loaded) :
    attemptsLeft cfg m { o.current with updatedAt := stamp } + 1 ≤
      attemptsLeft cfg m o.loaded := by
  have hmem : o ∈ s.send.objs := by
    rw [hobjs]
    exact List.mem_singleton.mpr rfl
  have hrow := (hi.row _ (hi.send.objs.2 o hmem).1).1
  have hsend := hi.send
  generalize s.send = pc at hobjs hhand hsend
  cases pc with
  | claimed o' =>
    obtain rfl := List.singleton_inj.mp hobjs
    obtain ⟨-, -, now, hcur⟩ := hsend
    rw [hcur] at hne
    exact absurd rfl hne
  | fellBack o' =>
    obtain rfl := List.singleton_inj.mp hobjs
    obtain ⟨-, hs, -, hcur⟩ := hsend
    rw [hcur] at hne
    exact absurd hs hne
  | acknowledged o' =>
    obtain rfl := List.singleton_inj.mp hobjs
    obtain ⟨-, hs, -, receipt, now, hcur⟩ := hsend
    rw [hcur, attemptsLeft_of_status .published rfl (by decide)]
    exact attemptsLeft_pos hrow hbefore (.inr hs)
  | finishing o' =>
    obtain rfl := List.singleton_inj.mp hobjs
    obtain ⟨-, hs, -, ⟨message, permanent, now, hcur⟩ | ⟨pid, now, hcur⟩⟩ := hsend
    · rw [hcur]
      exact attemptsLeft_failure hrow hbefore hs
    · rw [hcur, attemptsLeft_of_status .sent rfl (by decide)]
      exact attemptsLeft_pos hrow hbefore (.inr hs)
  | requeueing => cases hhand
  | _ => cases hobjs

end

/-! ## Steps -/

section
variable {lib : Lib} {cfg : Settings} {s t : Sys} {a : Action} {m : Message}

/-- **The attempts before `m` do not grow**, when nothing older is stored. -/
theorem attemptsBefore_step (hi : Inv cfg s) (h : Trans lib cfg s a t) (hnewer : Newer m s a) :
    attemptsBefore cfg m t.db ≤ attemptsBefore cfg m s.db := by
  unfold attemptsBefore
  cases rowsStep_of_trans hi h with
  | same hms => rw [hms]
  | change f hms hf =>
    rw [hms, List.map_map]
    apply List.sum_le_sum
    intro r hr
    show attemptsLeft cfg m (f r) ≤ attemptsLeft cfg m r
    rcases hf r hr with heq | hcause
    · rw [heq]
    · exact attemptsLeft_change (hi.row r hr).1 (hcause.change hi hr)
  | prune now ha hdb =>
    rw [hdb]
    apply List.Sublist.sum_le_sum
    · exact List.Sublist.map _ List.filter_sublist
    · exact fun _ _ => Nat.zero_le _
  | insert c hcommit hms hnil =>
    -- what comes new does not go before `m`
    have hzero : ∀ r ∈ s.callRows c, attemptsLeft cfg m r = 0 := by
      intro r hr
      cases c with
      | inl call =>
        obtain rfl : a = .sendMessage call .commit := by
          cases a with
          | sendMessage c b => cases b <;> simp_all [Action.commits]
          | inbound c b => cases b <;> cases hcommit
          | _ => cases hcommit
        have hlt := hnewer call rfl r hr
        exact if_neg fun hbefore => absurd hbefore.1.2 (Int.not_le.mpr hlt)
      | inr call =>
        have hnew := hi.call_row _ r hr
        refine if_neg fun hqueued => ?_
        have hout := (hnew.1.1.pending hqueued.2).1
        rw [hnew.1.2.1] at hout
        cases hout
    rw [hms, List.map_append, List.sum_append, List.map_congr_left hzero]
    simp

/-- A message that waits: it is queued, and the loop has not got it. -/
structure AwaitsTurn (cfg : Settings) (m : Message) (s : Sys) : Prop where
  inv : Inv cfg s
  stored : m ∈ s.db.messages
  queued : m.status = .queued
  not_held : m.id ∉ s.send.held

/-- **A message that waits stays as it is** until it is claimed. -/
theorem AwaitsTurn.step (hw : AwaitsTurn cfg m s) (hstep : Step lib cfg s a t)
    (hnot : ∀ now, a ≠ .send (.claimSelect now (some m.id))) : AwaitsTurn cfg m t where
  inv := inv_step hw.inv hstep
  stored := by
    have h := (trans_of_step hstep).2
    rcases rows_fate hw.inv h hw.stored with ⟨r, hr, rfl | hcause⟩ | ⟨now, -, hprune⟩
    · exact hr
    · -- the loop writes only what it holds, the others what has left the queue
      by_cases hsend : ∀ b, a ≠ .send b
      · exact absurd hw.queued (hcause.leftQueue hw.inv hw.stored hsend).1
      · cases hcause with
        | send ho hloaded =>
          subst hloaded
          exact absurd (SendLoop.Pc.held_of_objs ho) hw.not_held
        | poll | receipt => exact absurd (fun _ h => by cases h) hsend
    · simp only [isPrunable, Bool.and_eq_true, decide_eq_true_eq, hw.queued] at hprune
      exact absurd hprune.1 (by decide)
  queued := hw.queued
  not_held := by
    cases (trans_of_step hstep).2 with
    | send h =>
      intro hheld
      rcases h.held_cases hw.inv.send hheld with hold | ⟨now, stamp, -, r, hr, hid, hstuck⟩ |
        ⟨now, rfl, -⟩
      · exact hw.not_held hold
      · -- a queued row is not stuck
        obtain rfl := Store.eq_of_id hr hw.stored hid
        simp only [SendLoop.isStuck, Bool.and_eq_true, decide_eq_true_eq, hw.queued] at hstuck
        cases hstuck.1
      · exact hnot now rfl
    | crash => exact List.not_mem_nil
    | status | fanout | prune | sendMessage | inbound | configure => exact hw.not_held

/-- What the loop has in hand is a row of the queue. -/
private theorem hand_inQueue {db : Store} {pc : SendLoop.Pc} {r : Message}
    (hi : SendInv cfg db pc) (hr : r ∈ db.messages) (hhand : pc.inHand = some r.id) :
    r.status = .queued ∨ r.status = .sending := by
  have hrow : ∀ x ∈ db.messages, x.id = r.id → x = r := fun x hx hid => Store.eq_of_id hx hr hid
  cases pc with
  | claimed o =>
    obtain ⟨hmem, hdue, -⟩ := hi
    obtain rfl := hrow _ hmem (Option.some.inj hhand)
    simp only [SendLoop.isDue, Bool.and_eq_true, decide_eq_true_eq] at hdue
    exact .inl hdue.1.2
  | unbindable m =>
    obtain ⟨hmem, hs⟩ := hi
    obtain rfl := hrow _ hmem (Option.some.inj hhand)
    exact .inr hs
  | toPublish m | publishing m | limiting m | sending m =>
    obtain ⟨hmem, hs, -⟩ := hi
    obtain rfl := hrow _ hmem (Option.some.inj hhand)
    exact .inr hs
  | acknowledged o | fellBack o | finishing o =>
    obtain ⟨hmem, hs, -⟩ := hi
    obtain rfl := hrow _ hmem (Option.some.inj hhand)
    exact .inr hs
  | _ => cases hhand

/-- A row in hand is still there after any step, with its content. -/
private theorem hand_stays (hi : Inv cfg s) (h : Trans lib cfg s a t) {r : Message}
    (hr : r ∈ s.db.messages) (hhand : s.send.inHand = some r.id) :
    ∃ r' ∈ t.db.messages, r'.content = r.content := by
  rcases rows_fate hi h hr with ⟨r', hr', rfl | hcause⟩ | ⟨now, -, hprune⟩
  · exact ⟨r', hr', rfl⟩
  · exact ⟨r', hr', (hcause.change hi hr).frame⟩
  · -- the sweep takes nothing out of the queue
    simp only [isPrunable, Bool.and_eq_true, decide_eq_true_eq] at hprune
    have hleft := leftQueue_of_terminal hprune.1
    rcases hand_inQueue hi.send hr hhand with hs | hs
    · exact absurd hs hleft.1
    · exact absurd hs hleft.2

/-- When the outcome of an iteration is committed, the attempts before `m` get fewer by the
    one that it has used. -/
private theorem attemptsBefore_outcome {db' : Store} {o : Tracked Message} {now : Time}
    (hi : Inv cfg s) (hobjs : s.send.objs = [o])
    (hdb : s.db.updateMessages now s.send.objs = some db')
    (hhand : s.send.inHand = some o.loaded.id) (hne : o.current.status ≠ .sending)
    (hbefore : Before m o.loaded) :
    attemptsBefore cfg m db' + 1 ≤ attemptsBefore cfg m s.db := by
  have hmem : o ∈ s.send.objs := by
    rw [hobjs]
    exact List.mem_singleton.mpr rfl
  obtain ⟨-, hms, -⟩ := Store.updateMessages_eq_some.mp hdb
  have hloaded := (hi.send.objs.2 o hmem).1
  unfold attemptsBefore
  rw [hms, List.map_map]
  apply Nat.succ_le_of_lt
  apply List.sum_lt_sum
  · intro r hr
    show attemptsLeft cfg m (flushRow now s.send.objs r) ≤ attemptsLeft cfg m r
    rcases hi.send.flushRow_cases now hr with heq | ⟨o', ho', rfl, stamp, heq⟩
    · rw [heq]
    · rw [heq]
      exact attemptsLeft_change (hi.row _ hr).1 (.send stamp (hi.send.objs.2 o' ho').2)
  · -- the row itself has changed
    refine ⟨o.loaded, hloaded, ?_⟩
    show attemptsLeft cfg m (flushRow now s.send.objs o.loaded) < _
    rw [flushRow_of_mem now hi.send.keepsKeys hi.send.objs.1 hmem rfl, Message.writeTo_loaded,
      saved_eq]
    exact attemptsLeft_outcome hi hobjs hhand hne hbefore

/-- A row before `m` in hand stays in hand, or is let go by a label that breaks off, or has
    used an attempt up. -/
private theorem busy_step (hi : Inv cfg s) (h : Trans lib cfg s a t) :
    busy m s ≤ busy m t + (if a.breaksOff cfg = true then 1 else 0) ∨
      attemptsBefore cfg m t.db + 1 ≤ attemptsBefore cfg m s.db := by
  by_cases hbusy : ∃ r ∈ s.db.messages, s.send.inHand = some r.id ∧ Before m r
  · have hone : busy m s = 1 := if_pos hbusy
    obtain ⟨r, hr, hhand, hbefore⟩ := hbusy
    have hkept : t.send.inHand = some r.id → busy m t = 1 := by
      intro hkept
      obtain ⟨r', hr', hcontent⟩ := hand_stays hi h hr hhand
      refine if_pos ⟨r', hr', ?_, (before_of_content hcontent).mpr hbefore⟩
      rw [Message.id_eq_of_content hcontent]
      exact hkept
    by_cases hbreaks : a.breaksOff cfg = true
    · left
      rw [hone, if_pos hbreaks]
      omega
    · by_cases hsend : ∃ b, a = .send b
      · obtain ⟨b, rfl⟩ := hsend
        cases h with
        | send h =>
          rcases h.hand_cases hi.send hhand with
            hstays | habandons | ⟨o, now, hobjs, hdb, hoid, hne⟩
          · left
            rw [hone, hkept hstays]
            omega
          · exact absurd (breaksOff_of_abandons habandons) hbreaks
          · right
            have hloaded : o.loaded ∈ s.db.messages := (hi.send.objs.2 o (by rw [hobjs]; simp)).1
            obtain rfl := Store.eq_of_id hloaded hr hoid
            exact attemptsBefore_outcome hi hobjs hdb hhand hne hbefore
      · left
        have hsame := send_of_other h (fun b hb => hsend ⟨b, hb⟩) (fun hcrash => by
          subst hcrash
          exact hbreaks rfl)
        rw [hone, hkept (by rw [hsame]; exact hhand)]
        omega
  · left
    rw [busy, if_neg hbusy]
    exact Nat.zero_le _

/-- What is in hand still has its attempt. -/
private theorem busy_le (hi : Inv cfg s) : busy m s ≤ attemptsBefore cfg m s.db := by
  by_cases hbusy : ∃ r ∈ s.db.messages, s.send.inHand = some r.id ∧ Before m r
  · have hone : busy m s = 1 := if_pos hbusy
    obtain ⟨r, hr, hhand, hbefore⟩ := hbusy
    have hpos : 1 ≤ attemptsLeft cfg m r :=
      attemptsLeft_pos (hi.row r hr).1 hbefore (hand_inQueue hi.send hr hhand)
    have hsum : attemptsLeft cfg m r ≤ attemptsBefore cfg m s.db :=
      List.single_le_sum (fun _ _ => Nat.zero_le _) _ (List.mem_map_of_mem hr)
    omega
  · rw [busy, if_neg hbusy]
    exact Nat.zero_le _

/-- While `m` is due, a claim takes a row that goes before it. -/
private theorem claim_before (hw : AwaitsTurn cfg m s) {now : Time} {id : Option String}
    (h : Trans lib cfg s (.send (.claimSelect now id)) t) (hdue : SendLoop.isDue now m = true)
    (hnot : id ≠ some m.id) :
    ∃ r ∈ s.db.messages, id = some r.id ∧ Before m r ∧ t.db = s.db ∧
      s.send.inHand = none ∧ t.send.inHand = some r.id := by
  have hstored := hw.stored
  cases h with
  | send h =>
    generalize s.send = pc at h
    cases h with
    | claimNone hnone => exact absurd hdue (hnone m hstored)
    | @claimSome now r hr holdest =>
      refine ⟨r, hr, rfl, ⟨fun hid => hnot (congrArg some hid), ?_⟩, rfl, rfl, rfl⟩
      exact holdest.2 m hstored hdue

/-- One step, as far as `m` waits: a claim puts an attempt in hand, and what has been in hand
    is used up, unless the iteration is broken off. -/
private theorem turn_step (hw : AwaitsTurn cfg m s) (hstep : Step lib cfg s a t)
    (hnewer : Newer m s a) (hnot : ∀ now, a ≠ .send (.claimSelect now (some m.id)))
    (hdue : ∀ now id, a = .send (.claimSelect now id) → SendLoop.isDue now m = true) :
    attemptsBefore cfg m t.db + busy m s + (if a.claims = true then 1 else 0) ≤
      attemptsBefore cfg m s.db + busy m t + (if a.breaksOff cfg = true then 1 else 0) := by
  have h := (trans_of_step hstep).2
  by_cases hclaim : ∃ now id, a = .send (.claimSelect now id)
  · obtain ⟨now, id, rfl⟩ := hclaim
    obtain ⟨r, hr, rfl, hbefore, hdb, hnone, hhand⟩ :=
      claim_before hw h (hdue now id rfl) fun hid => hnot now (by rw [hid])
    have hzero : busy m s = 0 := by
      apply if_neg
      intro hbusy
      obtain ⟨x, -, hx, -⟩ := hbusy
      rw [hnone] at hx
      cases hx
    have hone : busy m t = 1 := if_pos ⟨r, hdb ▸ hr, hhand, hbefore⟩
    rw [hzero, hone, hdb]
    simp [Action.claims, Action.breaksOff]
  · have hno : a.claims = false := by
      cases a with
      | send b =>
        cases b with
        | claimSelect now id => exact absurd ⟨now, id, rfl⟩ hclaim
        | _ => rfl
      | _ => rfl
    rw [hno, if_neg Bool.false_ne_true]
    have hle := attemptsBefore_step hw.inv h hnewer
    have hone : busy m s ≤ 1 := by
      unfold busy
      split <;> omega
    rcases busy_step (m := m) hw.inv h with hbusy | hused <;> omega

end

/-! ## Runs -/

section
variable {lib : Lib} {cfg : Settings} {env : Env} {s t : Sys} {tr₀ tr : List Action} {m : Message}

/-- **How often a due message is passed over.**  In a run in which the message `m` is queued and
    due at every claim, and in which nothing older is stored, each claim of the send loop takes
    a stored message that is at least as old, and there are as many claims as these messages
    have attempts left, with one claim more for each label that may have broken an iteration
    off.  (In an iteration that `now - timedelta(seconds=stuck_after_seconds)` breaks off, as no
    `datetime`, there is no claim.) -/
theorem claims_bounded (hrun₀ : Run lib cfg (Sys.init env) tr₀ s) (hm : m ∈ s.db.messages)
    (hqueued : m.status = .queued) (hheld : m.id ∉ s.send.held)
    (hrun : Transition.Run (Guarded (Newer m) (Step lib cfg)) s tr t)
    (hdue : ∀ now id, .send (.claimSelect now id) ∈ tr → SendLoop.isDue now m = true)
    (hnot : ∀ now, .send (.claimSelect now (some m.id)) ∉ tr) :
    m ∈ t.db.messages ∧
    (∀ tr₁ tr₂ now id, tr = tr₁ ++ .send (.claimSelect now id) :: tr₂ → ∃ u,
      Run lib cfg s tr₁ u ∧ ∃ r ∈ u.db.messages, id = some r.id ∧ Before m r) ∧
    tr.countP Action.claims ≤ attemptsBefore cfg m s.db + tr.countP (Action.breaksOff cfg) := by
  have hw : AwaitsTurn cfg m s := ⟨inv_reachable hrun₀, hm, hqueued, hheld⟩
  have hguard := hrun.guard (P := fun a => (∀ now, a ≠ .send (.claimSelect now (some m.id))) ∧
      ∀ now id, a = .send (.claimSelect now id) → SendLoop.isDue now m = true) fun a ha =>
    ⟨fun now heq => hnot now (heq ▸ ha), fun now id heq => hdue now id (heq ▸ ha)⟩
  obtain ⟨hlast, hcount⟩ := hguard.countP_potential (I := AwaitsTurn cfg m) (P := Action.claims)
    (Q := Action.breaksOff cfg) (fun u => attemptsBefore cfg m u.db) (busy m) (fun u a v hu h =>
      ⟨hu.step h.2.2 h.1.1, turn_step hu h.2.2 h.2.1 h.1.1 h.1.2⟩) hw
  refine ⟨hlast.stored, ?_, ?_⟩
  · -- the state of the claim, in which `m` still waits
    rintro tr₁ tr₂ now id rfl
    obtain ⟨u, hbefore, hrest⟩ := hguard.split
    obtain ⟨v, hstep, -⟩ := hrest.cons_inv
    have hu := hbefore.invariant (I := AwaitsTurn cfg m) (fun _ _ _ hu h => hu.step h.2.2 h.1.1) hw
    obtain ⟨r, hr, hid, hold, -⟩ := claim_before hu (trans_of_step hstep.2.2).2
      (hstep.1.2 now id rfl) fun hid => hstep.1.1 now (by rw [hid])
    exact ⟨u, hbefore.unguard.unguard, r, hr, hid, hold⟩
  · have hle := busy_le (m := m) hlast.inv
    omega

end

namespace Sample

/-- Two messages of one service, five seconds apart. -/
def queueTwo : List Action :=
  queue "m1" 0 ++ [.sendMessage 1 (.begin "svc" request),
    .sendMessage 1 (.create ["m2"] (seconds 5)), .sendMessage 1 .commit]

/-- The older one is tried twice; the gateway is down. -/
def olderTwice : List Action :=
  post "m1" (seconds 6) ++ [answer "m1" 503 none (seconds 7), .send (.commit (seconds 7))] ++
    post "m1" (seconds 40) ++ [answer "m1" 503 none (seconds 41), .send (.commit (seconds 41))]

/-- The committed rows with what they are due from, and what the send loop holds. -/
def turns (s : Sys) : List (String × MessageStatus × Option Time) × List String :=
  (s.db.messages.map fun m => (m.id, m.status, m.nextAttemptAt), s.send.held)

end Sample

/-- The older message, with five attempts, passes over the younger one twice. -/
theorem claims_bounded_twice : ∃ s t m,
    Run Sample.lib Sample.cfg (Sys.init Sample.env) Sample.queueTwo s ∧ m ∈ s.db.messages ∧
    m.id = "m2" ∧ Run Sample.lib Sample.cfg s Sample.olderTwice t ∧ m ∈ t.db.messages ∧
    (∃ u, Run Sample.lib Sample.cfg s (Sample.olderTwice.take 7) u ∧
      ∃ r ∈ u.db.messages, r.id = "m1" ∧ Before m r) ∧
    Sample.olderTwice.countP Action.claims = 2 ∧
    Sample.olderTwice.countP Action.claims ≤ attemptsBefore Sample.cfg m s.db +
      Sample.olderTwice.countP (Action.breaksOff Sample.cfg) := by
  obtain ⟨s, t, hs, ht, hrows, -⟩ : ∃ s t,
      Run Sample.lib Sample.cfg (Sys.init Sample.env) Sample.queueTwo s ∧
      Run Sample.lib Sample.cfg s Sample.olderTwice t ∧
      Sample.turns s =
        ([("m1", .queued, some 0), ("m2", .queued, some (seconds 5))], []) ∧
      Sample.turns t =
        ([("m1", .queued, some (seconds 101)), ("m2", .queued, some (seconds 5))], []) :=
    run_of_exec_map₂ (by decide +kernel) (by decide +kernel)
  simp only [Sample.turns, Prod.mk.injEq] at hrows
  obtain ⟨hrows, hheld⟩ := hrows
  obtain ⟨m, hm, hrow⟩ : ∃ m ∈ s.db.messages,
      (m.id, m.status, m.nextAttemptAt) = ("m2", .queued, some (seconds 5)) :=
    List.mem_map.mp (by rw [hrows]; simp)
  simp only [Prod.mk.injEq] at hrow
  obtain ⟨hid, hqueued, hnext⟩ := hrow
  have hout := ((inv_reachable hs).row m hm).1.pending (.inl hqueued)
  -- the run has no calls, and no claim of the younger message
  have hguard : Transition.Run (Guarded (Newer m) (Step Sample.lib Sample.cfg)) s
      Sample.olderTwice t := by
    refine (ht.guard (P := fun a => ∀ call, a ≠ .sendMessage call .commit) ?_).mono
      fun u a v h => ⟨fun call ha => absurd ha (h.1 call), h.2⟩
    simp [Sample.olderTwice, Sample.post, Sample.answer]
  obtain ⟨hstays, hclaims, hcount⟩ := claims_bounded hs hm hqueued
    (by rw [hheld]; exact List.not_mem_nil) hguard (fun now id hmem => by
      simp [Sample.olderTwice, Sample.post, Sample.answer] at hmem
      rcases hmem with ⟨rfl, -⟩ | ⟨rfl, -⟩ <;>
        simp [SendLoop.isDue, hout.1, hqueued, hnext, seconds])
    (fun now hmem => by
      rw [hid] at hmem
      simp [Sample.olderTwice, Sample.post, Sample.answer] at hmem)
  -- the second claim takes the older message again
  obtain ⟨u, hu, r, hr, hrid, hbefore⟩ := hclaims (Sample.olderTwice.take 7)
    (Sample.olderTwice.drop 8) (seconds 40) (some "m1") rfl
  exact ⟨s, t, m, hs, hm, hid, ht, hstays, ⟨u, hu, r, hr, (Option.some.inj hrid).symm, hbefore⟩,
    by decide +kernel, hcount⟩

end SmsRelay
