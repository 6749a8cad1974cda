import SmsRelay.Spec.Handover
import SmsRelay.Spec.Idempotency
import SmsRelay.Spec.Provenance

/-!
# Recovery

A row that is committed as being sent while the loop does not hold it was left over by an
iteration that an exception or a crash cut short.  It stays as it is until an iteration
starts after its patience, and that iteration gives it back to the queue.

## Key results

- `Leftover.run`: such a row waits for the first iteration past its patience
- `Leftover.returned`: what that iteration makes of it
- `custody_reachable`: a message that was answered 202 is in the queue or has an outcome
-/

namespace SmsRelay

open UnitOfWork Transition

/-- The row is committed as being sent, and the loop does not hold it. -/
structure Leftover (s : Sys) (m : Message) : Prop where
  row : m ∈ s.db.messages
  sending : m.status = .sending
  free : m.id ∉ s.send.held

/-- The label starts an iteration whose clock is past the row's `updated_at` by more than
    `stuck_after_seconds`. -/
def Action.PastPatience (cfg : Settings) (m : Message) (a : Action) : Prop :=
  ∃ now stamp, a = .send (.requeueSelect now stamp) ∧
    m.updatedAt + seconds cfg.stuckAfterSeconds < now

/-- The label moves the send loop, by a step of its own or by ending the process. -/
def Action.movesSend : Action → Bool
  | .send _ => true
  | .crash => true
  | _ => false

/-- The row is back in the queue, and due from `stamp` on. -/
def Requeued (db : Store) (m : Message) (stamp : Time) : Prop :=
  ∃ r ∈ db.messages, r.content = m.content ∧ r.status = .queued ∧ r.nextAttemptAt = some stamp ∧
    ∀ clock, stamp ≤ clock → SendLoop.isDue clock r

/-- The loop is about to commit that the row goes back to the queue.  Whatever the other
    parties do, the commit can be made, and unless it fails or the process dies it
    gives the row back; otherwise the row is left over again. -/
def Returning (lib : Lib) (cfg : Settings) (s : Sys) (m : Message) (stamp : Time) : Prop :=
  ∀ tr t, Run lib cfg s tr t → (∀ a ∈ tr, a.movesSend = false) →
    (∀ now, ∃ u, Step lib cfg t (.send (.commit now)) u) ∧
    ∀ a u, Step lib cfg t a u → a.movesSend = true →
      (∃ now, a = .send (.commit now)) ∧ Requeued u.db m stamp ∨
        (a = .crash ∨ a = .send .dbError) ∧ Leftover u m

section
variable {lib : Lib} {cfg : Settings} {env : Env} {s t : Sys} {tr : List Action} {a : Action}
  {m : Message} {now stamp : Time}

/-! ## What the commits of the loop need -/

/-- The commits of the send loop never fail by themselves: the rows are there, and no
    column of a constraint is written. -/
theorem SendInv.exists_commit {db : Store} {pc : SendLoop.Pc} (hi : SendInv cfg db pc)
    (now : Time) : ∃ db', db.updateMessages now pc.objs = some db' := by
  -- A flush keeps the columns that the constraints are about
  have hcontent : ∀ r ∈ db.messages, (flushRow now pc.objs r).content = r.content := fun r hr => by
    rcases hi.flushRow_cases now hr with heq | ⟨o, ho, rfl, stamp, heq⟩
    · rw [heq]
    · rw [heq]
      exact (hi.objs.2 o ho).2.frame
  exact Store.exists_updateMessages (fun o ho _ => ⟨o.loaded, (hi.objs.2 o ho).1, rfl⟩) hcontent

/-- A move of the send loop is a step of the relay. -/
theorem step_send {b : SendLoop.Act} {db : Store} {pc : SendLoop.Pc}
    (h : SendLoop.step lib cfg s.db s.send b = some (db, pc)) :
    Step lib cfg s (.send b) { s with db := db, send := pc } := by
  simp [Step, StepOf, step, Fresh, Action.uuids, act, h]

/-! ## Rows left over -/

/-- When the process dies, every row that is being sent is left over. -/
theorem leftover_of_crash (hstep : Step lib cfg s .crash t) (hm : m ∈ t.db.messages)
    (hs : m.status = .sending) : Leftover t m := by
  cases (trans_of_step hstep).2
  exact ⟨hm, hs, List.not_mem_nil⟩

/-- A row left over stays left over until an iteration starts past its patience. -/
theorem Leftover.step (hl : Leftover s m) (hi : Inv cfg s) (hstep : Step lib cfg s a t)
    (hnot : ¬ a.PastPatience cfg m) : Leftover t m := by
  obtain ⟨-, h⟩ := trans_of_step hstep
  have hkeep : (∀ b, a ≠ .send b) → m ∈ t.db.messages := fun ha =>
    hi.keeps_queue h ha hl.row fun hleft => hleft.2 hl.sending
  have hsame : ∀ {r : Message}, r ∈ s.db.messages → r.id = m.id → r = m := fun hr hid =>
    Store.eq_of_id hr hl.row hid
  cases h with
  | send h =>
    refine ⟨h.keeps hl.row hl.free, hl.sending, fun hheld => ?_⟩
    -- only a requeue could take it, and the clock of this one is not past its patience
    rcases h.held_cases hi.send hheld with hold | ⟨now, stamp, rfl, r, hr, hid, hstuck⟩ |
      ⟨now, rfl, r, hr, hid, hdue⟩
    · exact hl.free hold
    · obtain rfl := hsame hr hid
      simp only [SendLoop.isStuck, Bool.and_eq_true, decide_eq_true_eq] at hstuck
      exact hnot ⟨now, stamp, rfl, Int.add_lt_of_lt_sub_right hstuck.2⟩
    · obtain rfl := hsame hr hid
      simp [SendLoop.isDue, hl.sending] at hdue
  | crash => exact ⟨hl.row, hl.sending, List.not_mem_nil⟩
  | status | fanout | prune | sendMessage | inbound | configure =>
    have hrow := hkeep fun b hb => by cases hb
    exact ⟨hrow, hl.sending, hl.free⟩

/-- **A row left over waits for the first iteration past its patience.** -/
theorem Leftover.run (hl : Leftover s m) (hi : Inv cfg s) (hrun : Run lib cfg s tr t)
    (hnot : ∀ a ∈ tr, ¬ a.PastPatience cfg m) : Leftover t m := by
  induction hrun with
  | nil => exact hl
  | snoc hrun hstep ih =>
    exact (ih fun a ha => hnot a (List.mem_append_left _ ha)).step (inv_run hi hrun) hstep
      (hnot _ (List.mem_append_right _ (List.mem_singleton.mpr rfl)))

/-- The commit of a requeue gives the row back. -/
theorem requeued_of_commit (hi : Inv cfg s) {objs : List (Tracked Message)}
    (hsend : s.send = .requeueing objs) (hm : m ∈ s.db.messages) (hs : m.status = .sending)
    (hobj : (Tracked.load m).assign (SendLoop.requeue stamp) ∈ objs)
    (hstep : Step lib cfg s (.send (.commit now)) t) : Requeued t.db m stamp := by
  obtain ⟨-, htrans⟩ := trans_of_step hstep
  have hinv := hi.send
  have hdirection := (((hi.row m hm).1).pending (.inr hs)).1
  cases htrans with
  | send h =>
    rw [hsend] at h hinv
    cases h with
    | requeued hdb =>
      obtain ⟨-, hms, -⟩ := Store.updateMessages_eq_some.mp hdb
      have hkeys : KeepsKeys objs := hinv.keepsKeys
      -- the flush writes the changed object over the row
      have hflush : flushRow now objs m =
          ((Tracked.load m).assign (SendLoop.requeue stamp)).saved now :=
        (flushRow_of_mem now hkeys hinv.1 hobj rfl).trans (Message.writeTo_loaded now _)
      refine ⟨_, by rw [hms]; exact List.mem_map_of_mem hm, ?_⟩
      rw [hflush, saved_eq]
      refine ⟨rfl, rfl, rfl, fun clock hclock => ?_⟩
      simp [SendLoop.isDue, SendLoop.requeue, hdirection, hclock]

/-- **The first iteration past its patience gives the row back**: it takes the row among
    the ones it requeues. -/
theorem Leftover.returned (hl : Leftover s m) (hi : Inv cfg s)
    (hstep : Step lib cfg s (.send (.requeueSelect now stamp)) t)
    (hpast : m.updatedAt + seconds cfg.stuckAfterSeconds < now) : Returning lib cfg t m stamp := by
  have hit := inv_step hi hstep
  have hstuck : SendLoop.isStuck cfg now m = true := by
    have hlt : m.updatedAt < now - seconds cfg.stuckAfterSeconds :=
      Int.lt_sub_right_of_add_lt hpast
    simp [SendLoop.isStuck, hl.sending, hlt]
  have hmem : m ∈ s.db.messages.filter (SendLoop.isStuck cfg now) :=
    List.mem_filter.mpr ⟨hl.row, hstuck⟩
  -- the row is among the objects of the requeue
  obtain ⟨objs, hsend, hobj, hrow⟩ : ∃ objs, t.send = .requeueing objs ∧
      (Tracked.load m).assign (SendLoop.requeue stamp) ∈ objs ∧ m ∈ t.db.messages := by
    cases (trans_of_step hstep).2 with
    | send h =>
      generalize s.send = pc at h
      cases h with
      | requeueNone hnone =>
        rw [hnone] at hmem
        cases hmem
      | requeueSome => exact ⟨_, rfl, List.mem_map.mpr ⟨m, hmem, rfl⟩, hl.row⟩
  intro tr u hrun hother
  -- nobody else takes the objects, or touches the row
  obtain ⟨husend, hurow⟩ : u.send = t.send ∧ m ∈ u.db.messages := by
    induction hrun with
    | nil => exact ⟨rfl, hrow⟩
    | @snoc tr u a v hrun hstep ih =>
      obtain ⟨ihsend, ihrow⟩ := ih fun a ha => hother a (List.mem_append_left _ ha)
      have ha := hother a (List.mem_append_right _ (List.mem_singleton.mpr rfl))
      have hnosend : ∀ b, a ≠ .send b := fun b hb => by simp [hb, Action.movesSend] at ha
      have hnocrash : a ≠ .crash := fun hcrash => by simp [hcrash, Action.movesSend] at ha
      obtain ⟨-, h⟩ := trans_of_step hstep
      exact ⟨(send_of_other h hnosend hnocrash).trans ihsend,
        (inv_run hit hrun).keeps_queue h hnosend ihrow fun hleft => hleft.2 hl.sending⟩
  have hiu := inv_run hit hrun
  rw [hsend] at husend
  constructor
  · intro now'
    have hsendInv := hiu.send
    rw [husend] at hsendInv
    obtain ⟨db', hdb⟩ := hsendInv.exists_commit now'
    refine ⟨{ u with db := db', send := .claiming }, step_send ?_⟩
    rw [husend]
    simpa [SendLoop.step, SendLoop.Pc.objs] using hdb
  · intro a v hstep' hmoves
    obtain ⟨-, h⟩ := trans_of_step hstep'
    cases h with
    | @send b db pc h =>
      rw [husend] at h
      cases h with
      | requeued hdb =>
        exact .inl ⟨⟨_, rfl⟩, requeued_of_commit hiu husend hurow hl.sending hobj hstep'⟩
      | dbError => exact .inr ⟨.inr rfl, hurow, hl.sending, List.not_mem_nil⟩
    | crash => exact .inr ⟨.inl rfl, hurow, hl.sending, List.not_mem_nil⟩
    | status | fanout | prune | sendMessage | inbound | configure => cases hmoves

/-! ## Messages that were accepted -/

/-- The row has a committed outcome. -/
def Message.HasOutcome (m : Message) : Prop :=
  m.status = .sent ∨ m.status = .delivered ∨ m.status = .failed ∨ m.status = .published

/-- The message is in the queue, or is being sent, or has an outcome, or had one before
    the sweep deleted it. -/
def InCustody (lib : Lib) (cfg : Settings) (env : Env) (tr : List Action) (s : Sys)
    (id : String) : Prop :=
  (∃ r ∈ s.db.messages, r.id = id ∧ r.direction = .outbound ∧
    (r.status = .queued ∨ r.status = .sending ∨ r.HasOutcome)) ∨
  Run.Passed (Step lib cfg) (Sys.init env) tr fun u =>
    ∃ r ∈ u.db.messages, r.id = id ∧ r.direction = .outbound ∧ r.HasOutcome

/-- An outbound row is in the queue, or is being sent, or has an outcome. -/
theorem RowInv.outbound_status (h : RowInv cfg m) (hdir : m.direction = .outbound) :
    m.status = .queued ∨ m.status = .sending ∨ m.HasOutcome := by
  cases hs : m.status with
  | received =>
    rw [h.received hs] at hdir
    cases hdir
  | queued => exact .inl rfl
  | sending => exact .inr (.inl rfl)
  | sent => exact .inr (.inr (.inl hs))
  | delivered => exact .inr (.inr (.inr (.inl hs)))
  | failed => exact .inr (.inr (.inr (.inr (.inl hs))))
  | published => exact .inr (.inr (.inr (.inr (.inr hs))))

/-- The rows of a new answer are committed: the call has just done it, or it found the
    row under its key. -/
theorem SendMessage.Trans.accepted {db db' : Store} {pc pc' : SendMessage.Pc}
    {b : SendMessage.Act} (h : SendMessage.Trans lib cfg env db pc b db' pc') {service : String}
    {request : SendRequest} {rows : List Message}
    (hdone : pc' = .done service request (.accepted rows)) :
    ∀ m ∈ rows, m ∈ db'.messages ∧ (m ∈ pc.rows ∨ m.idempotencyKey.isSome) := by
  intro m hm
  cases h.accepted_cases hdone with
  | inl hcommit =>
    obtain ⟨rfl, hrows⟩ := hcommit
    rw [hrows]
    exact ⟨List.mem_append_right _ hm, .inl hm⟩
  | inr hfound =>
    obtain ⟨key, m', -, rfl, hrow, hk⟩ := hfound
    obtain rfl := List.mem_singleton.mp hm
    obtain ⟨stored, hstored, -⟩ := Option.map_eq_some_iff.mp hk
    exact ⟨hrow, .inr (by simp [hstored])⟩

/-- A row that came from an event has no idempotency key. -/
theorem Came.unkeyed (h : Came lib cfg tr m) : m.idempotencyKey = none := by
  obtain ⟨event, now, number, r, -, -, hnew, hcontent⟩ := h
  have hkey : m.idempotencyKey = r.idempotencyKey := congrArg (·.2.2.2.2.2.2.1) hcontent
  obtain ⟨-, -, -, -, -, -, hnone, -⟩ := newMessage_inbound hnew
  exact hkey.trans hnone

/-- An answer of the next state is an old one, or all its rows are committed and outbound. -/
theorem accepted_step (hi : Inv cfg s) (hp : Provenance lib cfg tr t) (h : Trans lib cfg s a t)
    {call : Nat} {service : String} {request : SendRequest} {rows : List Message}
    (hdone : t.sendMessages call = .done service request (.accepted rows)) :
    s.sendMessages call = .done service request (.accepted rows) ∨
      ∀ m ∈ rows, m ∈ t.db.messages ∧ m.direction = .outbound := by
  cases h.sendMessage_step call with
  | other _ hpc => exact .inl (hpc ▸ hdone)
  | crash hpc => exact .inl (SendMessage.Pc.done_of_crashed (hpc ▸ hdone))
  | own h =>
    refine .inr fun m hm => ?_
    obtain ⟨hrow, hnew | hkey⟩ := h.accepted hdone m hm
    · exact ⟨hrow, (hi.call_row (.inl call) m hnew).1.2.1⟩
    · refine ⟨hrow, ?_⟩
      cases hdir : m.direction with
      | outbound => rfl
      | inbound =>
        -- inbound rows have no key to be found under
        rw [(hp.stored m hrow hdir).unkeyed] at hkey
        cases hkey

/-- A message in custody stays in custody. -/
theorem InCustody.step {id : String} (hc : InCustody lib cfg env tr s id)
    (hrun : Run lib cfg (Sys.init env) tr s) (hstep : Step lib cfg s a t) :
    InCustody lib cfg env (tr ++ [a]) t id := by
  have hi := inv_reachable hrun
  obtain ⟨-, h⟩ := trans_of_step hstep
  -- The row is kept, with its content, or swept
  rcases hc with ⟨r, hr, rfl, hdir, -⟩ | hpassed
  · rcases rows_fate hi h hr with ⟨r', hr', hcase⟩ | ⟨now, -, hprune⟩
    · have hcontent : r'.content = r.content := by
        rcases hcase with rfl | hcause
        · rfl
        · exact (hcause.change hi hr).frame
      have hdir' := (Message.direction_eq_of_content hcontent).trans hdir
      exact .inl ⟨r', hr', Message.id_eq_of_content hcontent, hdir',
        ((inv_step hi hstep).row r' hr').1.outbound_status hdir'⟩
    · -- the sweep only takes rows that have their outcome
      have hterminal : r.status ∈ terminalStatuses := by
        simp only [isPrunable, Bool.and_eq_true, decide_eq_true_eq] at hprune
        exact hprune.1
      have houtcome : r.HasOutcome := by
        rcases (hi.row r hr).1.outbound_status hdir with hs | hs | houtcome
        · rw [hs] at hterminal
          exact absurd hterminal (by decide)
        · rw [hs] at hterminal
          exact absurd hterminal (by decide)
        · exact houtcome
      exact .inr ((Run.passed_last hrun ⟨r, hr, rfl, hdir, houtcome⟩).extend [a])
  · exact .inr (hpassed.extend [a])

/-- **Every message of a 202 answer is in custody.** -/
theorem custody_reachable (hrun : Run lib cfg (Sys.init env) tr t) {call : Nat} {service : String}
    {request : SendRequest} {rows : List Message}
    (hdone : t.sendMessages call = .done service request (.accepted rows)) :
    ∀ m ∈ rows, InCustody lib cfg env tr t m.id := by
  induction hrun generalizing call service request rows with
  | nil => cases hdone
  | @snoc tr s a t hrun hstep ih =>
    have ht := hrun.snoc hstep
    intro m hm
    -- the answer was there before, or has just been given on committed rows
    rcases accepted_step (inv_reachable hrun) (provenance_reachable ht) (trans_of_step hstep).2
      hdone with hold | hnew
    · exact (ih hold m hm).step hrun hstep
    · obtain ⟨hrow, hdir⟩ := hnew m hm
      exact .inl ⟨m, hrow, rfl, hdir, ((inv_reachable ht).row m hrow).1.outbound_status hdir⟩

end

end SmsRelay
