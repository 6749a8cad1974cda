import SmsRelay.Spec.Retention

/-!
# What the sweep leaves

The sweep deletes rows by status and age; the other loops select rows by queries of their
own.  A row that was sent is polled for one day and only under a provider id.  After that
no query finds it, and its status is none of those that the sweep deletes.

## Key results

- `canSelect_iff`: the rows that a loop can still select at a time or later
- `sweepBounds_iff`: one sweep leaves only such rows unless it meets a row given up on
- `retention_bounds_iff`: which runs keep the table to the rows that a loop still wants
-/

namespace SmsRelay

open Transition

/-- What selects a message at a time: one of the queries on `messages`, or the selection
    of one of its deliveries. -/
inductive Selects (cfg : Settings) (db : Store) (now : Time) (m : Message) : Prop
  | requeue : SendLoop.isStuck cfg now m → Selects cfg db now m
  | claim : SendLoop.isDue now m → Selects cfg db now m
  | poll : StatusLoop.isPolled now m → Selects cfg db now m
  | deliver (d : WebhookDelivery) : d ∈ db.deliveries → d.messageId = m.id →
      FanoutLoop.isDue now d → Selects cfg db now m

/-- With the row as it is, some loop selects it at the time or later. -/
def CanSelect (cfg : Settings) (db : Store) (now : Time) (m : Message) : Prop :=
  ∃ later, now ≤ later ∧ Selects cfg db later m

/-- The status loop has given up on the row: it was sent without a provider id, or not
    within the last day. -/
def GivenUp (now : Time) (m : Message) : Prop :=
  m.status = .sent ∧ (m.providerMessageId = none ∨ ∀ t ∈ m.sentAt, t ≤ now - days 1)

/-- A sweep at `now` of `db` that left `db'` bounds the table: the rows outside the window
    that it left are ones that a loop can still select, and the others are gone. -/
structure SweepBounds (cfg : Settings) (now : Time) (db db' : Store) : Prop where
  remaining : ∀ m ∈ db'.messages, m.createdAt < now - days cfg.retentionDays →
    CanSelect cfg db' now m
  finished : ∀ m ∈ db.messages, m.createdAt < now - days cfg.retentionDays →
    ¬ CanSelect cfg db now m → m ∉ db'.messages

section
variable {lib : Lib} {cfg : Settings} {env : Env} {s t : Sys} {tr : List Action} {m : Message}
  {db : Store} {now later : Time}

/-! ## The queries over time -/

/-- The poll asks for the sent rows that it has not given up on. -/
theorem isPolled_iff : StatusLoop.isPolled now m = true ↔ m.status = .sent ∧ ¬ GivenUp now m := by
  unfold StatusLoop.isPolled GivenUp
  by_cases hs : m.status = .sent
  · cases hpid : m.providerMessageId <;> cases hat : m.sentAt <;> simp [hs]
  · simp [hs]

/-- A row that was given up on stays so. -/
theorem GivenUp.mono (hle : now ≤ later) (h : GivenUp now m) : GivenUp later m := by
  have hcutoff : now - days 1 ≤ later - days 1 := Int.sub_le_sub_right hle _
  exact ⟨h.1, h.2.imp_right fun hat t ht => Int.le_trans (hat t ht) hcutoff⟩

/-- A row that the poll no longer asks for is never asked for again. -/
theorem isPolled_anti (hle : now ≤ later) (h : StatusLoop.isPolled later m = true) :
    StatusLoop.isPolled now m = true := by
  obtain ⟨hs, hnot⟩ := isPolled_iff.mp h
  exact isPolled_iff.mpr ⟨hs, fun hup => hnot (hup.mono hle)⟩

/-- A row that was claimed is stuck at some time to come. -/
theorem exists_stuck (cfg : Settings) (now : Time) (hs : m.status = .sending) :
    ∃ later, now ≤ later ∧ SendLoop.isStuck cfg later m = true := by
  have hgap : ∀ updatedAt wait : Int, updatedAt < max now (updatedAt + wait + 1) - wait := by
    omega
  refine ⟨max now (m.updatedAt + seconds cfg.stuckAfterSeconds + 1), Int.le_max_left _ _, ?_⟩
  simpa [SendLoop.isStuck, hs] using hgap m.updatedAt (seconds cfg.stuckAfterSeconds)

/-- A next attempt, if there is one, is over at some time to come. -/
theorem exists_reached (now : Time) (next : Option Time) :
    ∃ later, now ≤ later ∧ ∀ t, next = some t → t ≤ later := by
  cases next with
  | none => exact ⟨now, Int.le_refl _, fun t ht => by cases ht⟩
  | some at_ =>
    refine ⟨max now at_, Int.le_max_left _ _, fun t ht => ?_⟩
    obtain rfl := Option.some.inj ht
    exact Int.le_max_right now at_

/-- A queued row is due at some time to come. -/
theorem exists_due (now : Time) (hdir : m.direction = .outbound) (hs : m.status = .queued) :
    ∃ later, now ≤ later ∧ SendLoop.isDue later m = true := by
  obtain ⟨later, hle, hreached⟩ := exists_reached now m.nextAttemptAt
  refine ⟨later, hle, ?_⟩
  cases hnext : m.nextAttemptAt with
  | none => simp [SendLoop.isDue, hdir, hs, hnext]
  | some at_ => simp [SendLoop.isDue, hdir, hs, hnext, hreached at_ hnext]

/-- A pending delivery is due at some time to come. -/
theorem exists_deliveryDue (now : Time) {d : WebhookDelivery} (hs : d.status = .pending) :
    ∃ later, now ≤ later ∧ FanoutLoop.isDue later d = true := by
  obtain ⟨later, hle, hreached⟩ := exists_reached now d.nextAttemptAt
  refine ⟨later, hle, ?_⟩
  cases hnext : d.nextAttemptAt with
  | none => simp [FanoutLoop.isDue, hs, hnext]
  | some at_ => simp [FanoutLoop.isDue, hs, hnext, hreached at_ hnext]

/-- **The rows that a loop still wants.**  They are the queued and sending rows, the sent
    rows that are polled now, and those with a pending delivery. -/
theorem canSelect_iff (h : RowInv cfg m) : CanSelect cfg db now m ↔
    m.status = .queued ∨ m.status = .sending ∨ StatusLoop.isPolled now m = true ∨
      ∃ d ∈ db.deliveries, d.messageId = m.id ∧ d.status = .pending := by
  constructor
  · rintro ⟨later, hle, hselects⟩
    cases hselects with
    | requeue hstuck =>
      simp only [SendLoop.isStuck, Bool.and_eq_true, decide_eq_true_eq] at hstuck
      exact .inr (.inl hstuck.1)
    | claim hdue =>
      simp only [SendLoop.isDue, Bool.and_eq_true, decide_eq_true_eq] at hdue
      exact .inl hdue.1.2
    | poll hpolled => exact .inr (.inr (.inl (isPolled_anti hle hpolled)))
    | deliver d hd hid hdue =>
      simp only [FanoutLoop.isDue, Bool.and_eq_true, decide_eq_true_eq] at hdue
      exact .inr (.inr (.inr ⟨d, hd, hid, hdue.1⟩))
  · intro hwanted
    -- each query finds its row once the clock has moved on far enough
    rcases hwanted with hs | hs | hpolled | ⟨d, hd, hid, hs⟩
    · obtain ⟨later, hle, hdue⟩ := exists_due now (h.pending (.inl hs)).1 hs
      exact ⟨later, hle, .claim hdue⟩
    · obtain ⟨later, hle, hstuck⟩ := exists_stuck cfg now hs
      exact ⟨later, hle, .requeue hstuck⟩
    · exact ⟨now, Int.le_refl _, .poll hpolled⟩
    · obtain ⟨later, hle, hdue⟩ := exists_deliveryDue now hs
      exact ⟨later, hle, .deliver d hd hid hdue⟩

/-! ## One sweep -/

/-- Only inbound messages have deliveries, and their rows are terminal. -/
theorem not_pending_of_sent (hrun : Run lib cfg (Sys.init env) tr s) (hm : m ∈ s.db.messages)
    (hs : m.status = .sent) : ∀ d ∈ s.db.deliveries, d.messageId ≠ m.id := by
  intro d hd hid
  have hdir := (parents_reachable hrun).stored d hd m hm hid.symm
  have hterminal := ((inv_reachable hrun).row m hm).1.inbound_terminal hdir
  rw [hs] at hterminal
  exact absurd hterminal (by decide)

/-- No loop selects a row again that was given up on. -/
theorem GivenUp.not_canSelect (hrun : Run lib cfg (Sys.init env) tr s)
    (hm : m ∈ s.db.messages) (h : GivenUp now m) : ¬ CanSelect cfg s.db now m := by
  intro hcan
  have hs : m.status = .sent := h.1
  rcases (canSelect_iff ((inv_reachable hrun).row m hm).1).mp hcan with
    hq | hq | hpolled | ⟨d, hd, hid, -⟩
  · rw [hs] at hq
    cases hq
  · rw [hs] at hq
    cases hq
  · exact (isPolled_iff.mp hpolled).2 h
  · exact not_pending_of_sent hrun hm hs d hd hid

/-- The sweep deletes no row that was given up on. -/
theorem GivenUp.not_prunable (h : GivenUp now m) : isPrunable cfg now m = false := by
  simp [isPrunable, terminalStatuses, h.1]

/-- A row is terminal, or on its way out, or sent. -/
theorem status_cases (m : Message) : m.status ∈ terminalStatuses ∨ m.status = .queued ∨
    m.status = .sending ∨ m.status = .sent := by
  cases m.status <;> simp [terminalStatuses]

/-- An old row that was not given up on is deleted by the sweep, or still wanted by the send
    loop or the poll, whatever its deliveries. -/
theorem prunable_or_canSelect (hrow : RowInv cfg m)
    (hold : m.createdAt < now - days cfg.retentionDays) (hup : ¬ GivenUp now m) :
    isPrunable cfg now m = true ∨ ∀ db, CanSelect cfg db now m := by
  rcases status_cases m with hs | hs | hs | hs
  · exact .inl (by simp [isPrunable, hs, hold])
  · exact .inr fun db => (canSelect_iff hrow).mpr (.inl hs)
  · exact .inr fun db => (canSelect_iff hrow).mpr (.inr (.inl hs))
  · have hpolled := isPolled_iff.mpr ⟨hs, hup⟩
    exact .inr fun db => (canSelect_iff hrow).mpr (.inr (.inr (.inl hpolled)))

/-- **One sweep.**  It leaves only rows that a loop can still select exactly when it meets
    no row outside the window that was given up on. -/
theorem sweepBounds_iff (hrun : Run lib cfg (Sys.init env) tr s) :
    SweepBounds cfg now s.db (prune cfg now s.db) ↔
      ∀ m ∈ s.db.messages, m.createdAt < now - days cfg.retentionDays → ¬ GivenUp now m := by
  constructor
  · intro hbounds m hm hold hup
    have hkept : m ∈ (prune cfg now s.db).messages :=
      Store.mem_deleteMessages.mpr ⟨hm, hup.not_prunable⟩
    exact hbounds.finished m hm hold (hup.not_canSelect hrun hm) hkept
  · intro hnone
    -- what the sweep kept, some loop can select, whatever the store
    have hkept : ∀ m ∈ (prune cfg now s.db).messages,
        m.createdAt < now - days cfg.retentionDays → ∀ db, CanSelect cfg db now m := by
      intro m hm hold
      obtain ⟨hm', hnot⟩ := Store.mem_deleteMessages.mp hm
      have hrow := ((inv_reachable hrun).row m hm').1
      apply (prunable_or_canSelect hrow hold (hnone m hm' hold)).resolve_left
      simp [hnot]
    constructor
    · exact fun m hm hold => hkept m hm hold _
    · exact fun m _ hold hnot hmem => hnot (hkept m hmem hold _)

/-! ## Every sweep of a run -/

/-- Every sweep of the run bounds the table. -/
def RetentionBounds (lib : Lib) (cfg : Settings) (env : Env) (tr : List Action) : Prop :=
  ∀ tr₁ now tr₂ s t, tr = tr₁ ++ .prune now :: tr₂ → Run lib cfg (Sys.init env) tr₁ s →
    Step lib cfg s (.prune now) t → SweepBounds cfg now s.db t.db

/-- At every sweep of the run, no row outside the window was given up on. -/
def NoneGivenUp (lib : Lib) (cfg : Settings) (env : Env) (tr : List Action) : Prop :=
  ∀ tr₁ now tr₂ s, tr = tr₁ ++ .prune now :: tr₂ → Run lib cfg (Sys.init env) tr₁ s →
    ∀ m ∈ s.db.messages, m.createdAt < now - days cfg.retentionDays → ¬ GivenUp now m

/-- **Retention bounds the table** in exactly the runs whose sweeps meet no row outside the
    window that was sent without a provider id, or a day or more before the sweep. -/
theorem retention_bounds_iff (hrun : Run lib cfg (Sys.init env) tr t) :
    RetentionBounds lib cfg env tr ↔ NoneGivenUp lib cfg env tr := by
  constructor
  · intro hbounds tr₁ now tr₂ s htr hs
    subst htr
    -- the run itself takes the sweep
    obtain ⟨u, hstep, -⟩ := (run_rest hrun hs).cons_inv
    have hsweep := hbounds tr₁ now tr₂ s u rfl hs hstep
    rw [db_of_prune hstep] at hsweep
    exact (sweepBounds_iff hs).mp hsweep
  · intro hnone tr₁ now tr₂ s u htr hs hstep
    rw [db_of_prune hstep]
    exact (sweepBounds_iff hs).mpr (hnone tr₁ now tr₂ s htr hs)

end

namespace Sample

/-- Each committed message with its status, when it was created and sent, and its provider
    id. -/
def ages (s : Sys) : List (MessageStatus × Time × Option Time × Option String) :=
  s.db.messages.map fun m => (m.status, m.createdAt, m.sentAt, m.providerMessageId)

/-- Every row is listed. -/
theorem mem_ages {s : Sys} {m : Message} (hm : m ∈ s.db.messages) :
    (m.status, m.createdAt, m.sentAt, m.providerMessageId) ∈ ages s :=
  List.mem_map.mpr ⟨m, hm, rfl⟩

/-- A message waits in the queue for forty days before it goes out. -/
def sentLate : List Action :=
  queue "m1" 0 ++ post "m1" (days 40) ++
    [answer "m1" 202 (some (.obj [("id", .str "g1")])) (days 40), .send (.commit (days 40))]

/-- A trace with one sweep, at its end, has no other. -/
theorem sweep_last {tr tr₁ tr₂ : List Action} {now last : Time}
    (hnone : ∀ now, Action.prune now ∉ tr) (h : tr ++ [.prune last] = tr₁ ++ .prune now :: tr₂) :
    tr = tr₁ ∧ last = now := by
  rcases List.append_eq_append_iff.mp h with ⟨tr₃, rfl, hrest⟩ | ⟨tr₃, rfl, hrest⟩
  · cases tr₃ with
    | nil =>
      obtain ⟨hlast, -⟩ := List.cons.inj hrest
      cases hlast
      exact ⟨by simp, rfl⟩
    | cons a tr₃ => simp at hrest
  · cases tr₃ with
    | nil =>
      obtain ⟨hlast, -⟩ := List.cons.inj hrest
      cases hlast
      exact ⟨by simp, rfl⟩
    | cons a tr₃ =>
      -- the sweep would be one of the labels before the last
      obtain ⟨ha, -⟩ := List.cons.inj hrest
      exact absurd (by simp [← ha]) (hnone now)

end Sample

/-- The row is outside the window of thirty days, and the sweep leaves it to the poll. -/
theorem retention_bounds_iff_late : ∃ t,
    Run Sample.lib Sample.cfg (Sys.init Sample.env)
      (Sample.sentLate ++ [.prune (days 40 + 1)]) t ∧
    Sample.ages t = [(.sent, 0, some (days 40), some "g1")] ∧
    RetentionBounds Sample.lib Sample.cfg Sample.env
      (Sample.sentLate ++ [.prune (days 40 + 1)]) := by
  obtain ⟨s, t, hs, hrest, hages, ht⟩ : ∃ s t,
      Run Sample.lib Sample.cfg (Sys.init Sample.env) Sample.sentLate s ∧
      Run Sample.lib Sample.cfg s [.prune (days 40 + 1)] t ∧
      Sample.ages s = [(.sent, 0, some (days 40), some "g1")] ∧
      Sample.ages t = [(.sent, 0, some (days 40), some "g1")] :=
    run_of_exec_map₂ (by decide +kernel) (by decide +kernel)
  refine ⟨t, hs.append hrest, ht, (retention_bounds_iff (hs.append hrest)).mpr ?_⟩
  intro tr₁ now tr₂ s' htr hs' m hm _ hup
  obtain ⟨rfl, rfl⟩ := Sample.sweep_last (by simp [Sample.sentLate, Sample.queue, Sample.post,
    Sample.answer]) htr
  obtain rfl := run_unique hs hs'
  -- the row was sent a microsecond before the sweep, under a provider id
  have hrow := Sample.mem_ages hm
  rw [hages] at hrow
  simp only [List.mem_singleton, Prod.mk.injEq] at hrow
  obtain ⟨-, -, hsentAt, hpid⟩ := hrow
  rcases hup.2 with hnone | hbefore
  · rw [hpid] at hnone
    cases hnone
  · exact absurd (hbefore (days 40) hsentAt) (by decide)

/-- The gateway took the message and never reported on it.  Ninety days later the row is
    still there, and no loop selects it from then on. -/
theorem not_retention_bounds_silent : 1 ≤ Sample.cfg.retentionDays ∧
    ¬ RetentionBounds Sample.lib Sample.cfg Sample.env (Sample.sent ++ [.prune (days 91)]) := by
  refine ⟨by decide, fun hbounds => ?_⟩
  obtain ⟨s, t, hs, hrest, -, ht⟩ : ∃ s t,
      Run Sample.lib Sample.cfg (Sys.init Sample.env) Sample.sent s ∧
      Run Sample.lib Sample.cfg s [.prune (days 91)] t ∧
      Sample.ages s = [(.sent, 0, some 2, some "g1")] ∧
      Sample.ages t = [(.sent, 0, some 2, some "g1")] :=
    run_of_exec_map₂ (by decide +kernel) (by decide +kernel)
  obtain ⟨u, hstep, hnil⟩ := hrest.cons_inv
  obtain rfl := hnil.nil_inv
  have hsweep := hbounds Sample.sent (days 91) [] s u rfl hs hstep
  obtain ⟨m, hm, hrow⟩ : ∃ m ∈ u.db.messages,
      (m.status, m.createdAt, m.sentAt, m.providerMessageId) = (.sent, 0, some 2, some "g1") :=
    List.mem_map.mp (by rw [Sample.ages] at ht; rw [ht]; exact List.mem_singleton.mpr rfl)
  simp only [Prod.mk.injEq] at hrow
  obtain ⟨hstatus, hcreated, hsentAt, -⟩ := hrow
  have hup : GivenUp (days 91) m := by
    refine ⟨hstatus, .inr fun at_ hat => ?_⟩
    rw [hsentAt] at hat
    cases hat
    decide
  exact hup.not_canSelect (hs.snoc hstep) hm
    (hsweep.remaining m hm (by rw [hcreated]; decide))

end SmsRelay
