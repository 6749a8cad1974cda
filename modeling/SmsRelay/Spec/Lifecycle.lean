import Mathlib.Logic.Relation
import SmsRelay.Native.SendLoop
import SmsRelay.Native.StatusLoop
import SmsRelay.Native.Routes.Messages
import SmsRelay.Native.Routes.Inbound

/-!
# The life of a message row

What the relay is for, seen from one row: a row is created queued (or received), only
the send loop moves it out of the queue, and later only the status poll and receipts
touch its status.  `Change` is one commit's effect on a row it changes, `Evolved` any
number of them.  Nothing here mentions sessions, interleavings or the other rows; the
system invariant shows that every commit of every party is such a change.

## Key results

- `Change.frame`: the columns no commit ever writes
- `RowInv.change`: the queue invariant is kept by every change
- `Posted.evolved`: a row that was handed to the provider never goes back to the queue
-/

namespace SmsRelay

open UnitOfWork

/-- The bound `max(1, max_attempts)`. -/
def Settings.attemptBound (cfg : Settings) : Int := max 1 cfg.maxAttempts

theorem Settings.one_le_attemptBound (cfg : Settings) : 1 ≤ cfg.attemptBound :=
  Int.le_max_left _ _

theorem Settings.maxAttempts_le_attemptBound (cfg : Settings) :
    cfg.maxAttempts ≤ cfg.attemptBound := Int.le_max_right _ _

/-- What the send loop assigns to a row it has in hand, with the state the row is in. -/
inductive SendChange (cfg : Settings) (m : Message) : Message → Prop
  | requeue (now : Time) : m.status = .sending → SendChange cfg m (SendLoop.requeue now m)
  | claim (now : Time) : m.direction = .outbound → m.status = .queued →
      SendChange cfg m (SendLoop.claim now m)
  | fallBack : m.status = .sending → m.transport = .ntfy →
      SendChange cfg m (SendLoop.fallBack m)
  | published (receipt : String) (now : Time) : m.status = .sending → m.transport = .ntfy →
      SendChange cfg m (SendLoop.markPublished receipt now m)
  | failure (message : String) (permanent : Bool) (now : Time) : m.status = .sending →
      m.transport ≠ .ntfy →
      SendChange cfg m (SendLoop.recordFailure cfg message permanent now m)
  | sent (pid : Option String) (now : Time) : m.status = .sending → m.transport ≠ .ntfy →
      SendChange cfg m (SendLoop.markSent pid now m)

/-- The send loop only works on rows that are queued or being sent. -/
theorem SendChange.inQueue {cfg : Settings} {m m' : Message} (h : SendChange cfg m m') :
    m.status = .queued ∨ m.status = .sending := by
  cases h with
  | claim _ _ hs => exact .inl hs
  | requeue _ hs => exact .inr hs
  | fallBack hs => exact .inr hs
  | published _ _ hs => exact .inr hs
  | failure _ _ _ hs => exact .inr hs
  | sent _ _ hs => exact .inr hs

/-- The row was handed to the provider and has left the queue for good. -/
structure Posted (cfg : Settings) (m : Message) : Prop where
  outbound : m.direction = .outbound
  sentAt : m.sentAt.isSome
  transport : m.transport ≠ .ntfy
  attempts_pos : 1 ≤ m.attempts
  attempts_le : (m.attempts : Int) ≤ cfg.attemptBound
  not_queued : m.status ≠ .queued
  not_sending : m.status ≠ .sending

/-- The effect of one commit on a row that it changes; `now` is the `updated_at` stamp. -/
inductive Change (cfg : Settings) (m : Message) : Message → Prop
  | send {m' : Message} (now : Time) : SendChange cfg m m' →
      Change cfg m { m' with updatedAt := now }
  /-- The poll's upgrade of a row that was `sent` when it was selected. -/
  | poll (status : MessageStatus) (now : Time) : Posted cfg m →
      status = .delivered ∨ status = .failed →
      Change cfg m { m with status := status, updatedAt := now }
  /-- A pushed receipt, which looks at nothing but the provider id. -/
  | receipt (now : Time) : m.providerMessageId.isSome →
      Change cfg m { m with status := .delivered, updatedAt := now }

/-- Any number of commits. -/
abbrev Evolved (cfg : Settings) : Message → Message → Prop :=
  Relation.ReflTransGen (Change cfg)

/-! ### The columns no commit writes -/

/-- The columns that are written once, when the row is created. -/
def Message.content (m : Message) :=
  (m.id, m.direction, m.toNumber, m.fromNumber, m.body, m.service, m.idempotencyKey,
    m.notificationTopic, m.notificationPriority, m.createdAt)

theorem recordFailure_content (cfg : Settings) (message : String) (permanent : Bool)
    (now : Time) (m : Message) :
    (SendLoop.recordFailure cfg message permanent now m).content = m.content := by
  unfold SendLoop.recordFailure
  dsimp only
  split <;> rfl

theorem SendChange.frame {cfg : Settings} {m m' : Message} (h : SendChange cfg m m') :
    m'.content = m.content := by
  cases h with
  | failure message permanent now _ _ => exact recordFailure_content cfg message permanent now m
  | requeue | claim | fallBack | published | sent => rfl

/-- No commit changes what a message says, to whom and for whom. -/
theorem Change.frame {cfg : Settings} {m m' : Message} (h : Change cfg m m') :
    m'.content = m.content := by
  cases h with
  | send now h => exact h.frame
  | poll | receipt => rfl

/-- What every commit keeps, any number of commits keeps. -/
theorem Evolved.keeps {cfg : Settings} {P : Message → Prop}
    (hP : ∀ m m', P m → Change cfg m m' → P m') {m m' : Message} (h : P m)
    (he : Evolved cfg m m') : P m' := by
  induction he with
  | refl => exact h
  | tail _ hc ih => exact hP _ _ ih hc

theorem Evolved.frame {cfg : Settings} {m m' : Message} (h : Evolved cfg m m') :
    m'.content = m.content :=
  h.keeps (P := fun x => x.content = m.content) (fun _ _ hx hc => hc.frame.trans hx) rfl

theorem Message.id_eq_of_content {m m' : Message} (h : m'.content = m.content) :
    m'.id = m.id := congrArg Prod.fst h

theorem Message.direction_eq_of_content {m m' : Message} (h : m'.content = m.content) :
    m'.direction = m.direction := congrArg (·.2.1) h

theorem Message.topic_eq_of_content {m m' : Message} (h : m'.content = m.content) :
    m'.notificationTopic = m.notificationTopic := congrArg (·.2.2.2.2.2.2.2.1) h

theorem Message.idemKey_eq_of_content {m m' : Message} (h : m'.content = m.content) :
    m'.idemKey = m.idemKey := by
  have hservice : m'.service = m.service := congrArg (·.2.2.2.2.2.1) h
  have hkey : m'.idempotencyKey = m.idempotencyKey := congrArg (·.2.2.2.2.2.2.1) h
  simp only [Message.idemKey, hservice, hkey]

/-! ### The queue invariant -/

/-- What holds of every row of a reachable database. -/
structure RowInv (cfg : Settings) (m : Message) : Prop where
  pending : m.status = .queued ∨ m.status = .sending →
    m.direction = .outbound ∧ m.providerMessageId = none ∧ m.sentAt = none ∧
      (m.attempts : Int) < cfg.attemptBound
  sent : m.status = .sent → m.error = none ∧ Posted cfg m
  /-- The status is one a row reaches only after it was handed over. -/
  failed : m.status = .failed → m.direction = .outbound ∧ m.transport ≠ .ntfy ∧
    1 ≤ m.attempts ∧ (m.attempts : Int) ≤ cfg.attemptBound
  published : m.status = .published → m.direction = .outbound ∧ m.transport = .ntfy ∧
    ∃ receipt, m.providerMessageId = some ("ntfy:" ++ receipt)
  ntfy : m.transport = .ntfy → m.attempts = 0
  sms : m.transport = .sms ↔ m.notificationTopic = none
  /-- A provider id is only ever stored together with the time of the hand-over. -/
  providerId : m.direction = .outbound → m.providerMessageId.isSome → m.sentAt.isSome
  delivered : m.status = .delivered → m.direction = .outbound → m.sentAt.isSome
  received : m.status = .received → m.direction = .inbound

/-- A row as an API call adds it in direction `d`. -/
def Message.IsNew (d : Direction) (m : Message) : Prop :=
  m.direction = d ∧ m.attempts = 0 ∧ (d = .outbound → m.status = .queued)

/-- The outcome columns of a failed attempt. -/
theorem recordFailure_cases (cfg : Settings) (message : String) (permanent : Bool)
    (now : Time) (m : Message) :
    (SendLoop.recordFailure cfg message permanent now m).attempts = m.attempts + 1 ∧
    (SendLoop.recordFailure cfg message permanent now m).transport = m.transport ∧
    (SendLoop.recordFailure cfg message permanent now m).providerMessageId =
      m.providerMessageId ∧
    (SendLoop.recordFailure cfg message permanent now m).sentAt = m.sentAt ∧
    ((SendLoop.recordFailure cfg message permanent now m).status = .failed ∧
        (permanent = true ∨ cfg.maxAttempts ≤ m.attempts + 1) ∨
      (SendLoop.recordFailure cfg message permanent now m).status = .queued ∧
        permanent = false ∧ (m.attempts : Int) + 1 < cfg.maxAttempts) := by
  unfold SendLoop.recordFailure
  dsimp only
  split
  · next h => exact ⟨rfl, rfl, rfl, rfl, .inl ⟨rfl, by simpa using h⟩⟩
  · next h =>
    have h' : permanent = false ∧ (m.attempts : Int) + 1 < cfg.maxAttempts := by simpa using h
    exact ⟨rfl, rfl, rfl, rfl, .inr ⟨rfl, h'⟩⟩

/-- The `updated_at` stamp is in no clause of the invariant. -/
theorem RowInv.stamp {cfg : Settings} {m : Message} (h : RowInv cfg m) (now : Time) :
    RowInv cfg { m with updatedAt := now } where
  pending := h.pending
  sent hs := by
    obtain ⟨herr, hp⟩ := h.sent hs
    exact ⟨herr, { hp with }⟩
  failed := h.failed
  published := h.published
  ntfy := h.ntfy
  sms := h.sms
  providerId := h.providerId
  delivered := h.delivered
  received := h.received

section SendLoop

variable {cfg : Settings} {m : Message}

/-- The sweep of a stuck row. -/
private theorem RowInv.requeue (h : RowInv cfg m) (now : Time) (hs : m.status = .sending) :
    RowInv cfg (SendLoop.requeue now m) :=
  { h with
    pending := fun _ => h.pending (.inr hs)
    sent := nofun
    failed := nofun
    published := nofun
    delivered := nofun
    received := nofun }

/-- The claim of a due row. -/
private theorem RowInv.claim (h : RowInv cfg m) (now : Time) (hs : m.status = .queued) :
    RowInv cfg (SendLoop.claim now m) :=
  { h with
    pending := fun _ => h.pending (.inl hs)
    sent := nofun
    failed := nofun
    published := nofun
    delivered := nofun
    received := nofun }

/-- The switch to SMS after ntfy refused. -/
private theorem RowInv.fallBack (h : RowInv cfg m) (hs : m.status = .sending)
    (ht : m.transport = .ntfy) : RowInv cfg (SendLoop.fallBack m) := by
  -- Only a row with a topic is ever on ntfy, and the topic stays in the row
  have htopic : m.notificationTopic ≠ none := fun hnone => by
    rw [h.sms.mpr hnone] at ht
    cases ht
  -- The row is still being sent: the clauses about settled rows say nothing
  have hstatus : (SendLoop.fallBack m).status = .sending := hs
  exact {
    pending := fun _ => h.pending (.inr hs)
    sent := fun hsent => by rw [hsent] at hstatus; cases hstatus
    failed := fun hf => by rw [hf] at hstatus; cases hstatus
    published := fun hpub => by rw [hpub] at hstatus; cases hstatus
    ntfy := nofun
    sms := by simp [SendLoop.fallBack, htopic]
    providerId := h.providerId
    delivered := h.delivered
    received := h.received }

/-- The record of an answer of ntfy. -/
private theorem RowInv.markPublished (h : RowInv cfg m) (receipt : String) (now : Time)
    (hs : m.status = .sending) (ht : m.transport = .ntfy) :
    RowInv cfg (SendLoop.markPublished receipt now m) where
  pending := by simp [SendLoop.markPublished]
  sent := nofun
  failed := nofun
  published _ := ⟨(h.pending (.inr hs)).1, ht, receipt, rfl⟩
  ntfy := h.ntfy
  sms := h.sms
  providerId _ _ := rfl
  delivered := nofun
  received := nofun

/-- The record of an answer of the provider. -/
private theorem RowInv.markSent (h : RowInv cfg m) (pid : Option String) (now : Time)
    (hs : m.status = .sending) (ht : m.transport ≠ .ntfy) :
    RowInv cfg (SendLoop.markSent pid now m) := by
  obtain ⟨hdir, -, -, hatt⟩ := h.pending (.inr hs)
  -- A row being sent has an attempt left, which this one uses
  have hle : ((m.attempts + 1 : Nat) : Int) ≤ cfg.attemptBound := by push_cast; omega
  exact {
    pending := by simp [SendLoop.markSent]
    sent := fun _ => ⟨rfl, ⟨hdir, rfl, ht, Nat.le_add_left 1 _, hle, nofun, nofun⟩⟩
    failed := nofun
    published := nofun
    ntfy := fun hn => absurd hn ht
    sms := h.sms
    providerId := fun _ _ => rfl
    delivered := nofun
    received := nofun }

/-- The record of a failed attempt. -/
private theorem RowInv.recordFailure (h : RowInv cfg m) (message : String) (permanent : Bool)
    (now : Time) (hs : m.status = .sending) (ht : m.transport ≠ .ntfy) :
    RowInv cfg (SendLoop.recordFailure cfg message permanent now m) := by
  obtain ⟨hdir, hpid, hsent, hatt⟩ := h.pending (.inr hs)
  obtain ⟨hatt', htr', hpid', hsent', hstatus⟩ :=
    recordFailure_cases cfg message permanent now m
  have hcont := recordFailure_content cfg message permanent now m
  have hdir' := (Message.direction_eq_of_content hcont).trans hdir
  have hle : ((m.attempts + 1 : Nat) : Int) ≤ cfg.attemptBound := by push_cast; omega
  have hmax := cfg.maxAttempts_le_attemptBound
  refine
    { pending := fun hq => ⟨hdir', hpid'.trans hpid, hsent'.trans hsent, ?_⟩
      sent := fun hs' => ?_
      failed := fun _ => ⟨hdir', by rwa [htr'], by omega, by rw [hatt']; exact hle⟩
      published := fun hs' => ?_
      ntfy := fun hn => absurd (htr'.symm.trans hn) ht
      sms := by rw [htr', Message.topic_eq_of_content hcont]; exact h.sms
      providerId := fun _ hsome => by rw [hpid', hpid] at hsome; cases hsome
      delivered := fun hs' => ?_
      received := fun hs' => ?_ }
  · -- A row goes back to the queue only while `attempts` is below the maximum
    rcases hstatus with ⟨hf, -⟩ | ⟨-, -, hlt⟩
    · rcases hq with hq | hq <;> rw [hf] at hq <;> cases hq
    · rw [hatt']; push_cast; omega
  -- The new status is `failed` or `queued`, so the other clauses say nothing
  all_goals rcases hstatus with ⟨hf, -⟩ | ⟨hf, -⟩ <;> rw [hf] at hs' <;> cases hs'

end SendLoop

/-- The invariant is kept by every branch of the send loop. -/
theorem RowInv.sendChange {cfg : Settings} {m m' : Message} (h : RowInv cfg m)
    (hc : SendChange cfg m m') : RowInv cfg m' := by
  cases hc with
  | requeue now hs => exact h.requeue now hs
  | claim now _ hs => exact h.claim now hs
  | fallBack hs ht => exact h.fallBack hs ht
  | published receipt now hs ht => exact h.markPublished receipt now hs ht
  | failure message permanent now hs ht => exact h.recordFailure message permanent now hs ht
  | sent pid now hs ht => exact h.markSent pid now hs ht

/-- **The queue invariant is kept by every commit.** -/
theorem RowInv.change {cfg : Settings} {m m' : Message} (h : RowInv cfg m)
    (hc : Change cfg m m') : RowInv cfg m' := by
  cases hc with
  | send now hs => exact (h.sendChange hs).stamp now
  | poll status now hp hstatus =>
    refine
      { h with
        pending := fun hq => ?_
        sent := fun hs => ?_
        failed := fun _ => ⟨hp.outbound, hp.transport, hp.attempts_pos, hp.attempts_le⟩
        published := fun hs => ?_
        delivered := fun _ _ => hp.sentAt
        received := fun hs => ?_ }
    · rcases hstatus with rfl | rfl <;> rcases hq with hq | hq <;> cases hq
    -- The poll only ever writes `delivered` or `failed`
    all_goals rcases hstatus with rfl | rfl <;> cases hs
  | receipt now hpid =>
    exact { h with
      pending := by simp
      sent := nofun
      failed := nofun
      published := nofun
      delivered := fun _ hdir => h.providerId hdir hpid
      received := nofun }

theorem RowInv.evolved {cfg : Settings} {m m' : Message} (h : RowInv cfg m)
    (he : Evolved cfg m m') : RowInv cfg m' :=
  he.keeps (fun _ _ => RowInv.change) h

/-! ### Rows that have left the queue -/

/-- A row that was handed over stays handed over. -/
theorem Posted.change {cfg : Settings} {m m' : Message} (h : Posted cfg m)
    (hc : Change cfg m m') : Posted cfg m' := by
  cases hc with
  | send now hs => exact absurd hs.inQueue (not_or.mpr ⟨h.not_queued, h.not_sending⟩)
  | poll status now _ hstatus =>
    exact { h with
      not_queued := by rcases hstatus with rfl | rfl <;> exact nofun
      not_sending := by rcases hstatus with rfl | rfl <;> exact nofun }
  | receipt now _ => exact { h with not_queued := nofun, not_sending := nofun }

theorem Posted.evolved {cfg : Settings} {m m' : Message} (h : Posted cfg m)
    (he : Evolved cfg m m') : Posted cfg m' :=
  he.keeps (fun _ _ => Posted.change) h

/-- The row is neither queued nor being sent. -/
def Message.LeftQueue (m : Message) : Prop := m.status ≠ .queued ∧ m.status ≠ .sending

/-- No commit puts a row back into the queue. -/
theorem leftQueue_change {cfg : Settings} {m m' : Message} (h : m.LeftQueue)
    (hc : Change cfg m m') : m'.LeftQueue := by
  cases hc with
  | send now hs => exact absurd hs.inQueue (not_or.mpr h)
  | poll status now _ hstatus => rcases hstatus with rfl | rfl <;> exact ⟨nofun, nofun⟩
  | receipt now _ => exact ⟨nofun, nofun⟩

/-- **A row that has left the queue only ever changes its status.** -/
theorem leftQueue_frozen {cfg : Settings} {m m' : Message} (h : m.LeftQueue)
    (hc : Change cfg m m') :
    m' = { m with status := m'.status, updatedAt := m'.updatedAt } := by
  cases hc with
  | send now hs => exact absurd hs.inQueue (not_or.mpr h)
  | poll | receipt => rfl

theorem leftQueue_evolved {cfg : Settings} {m m' : Message} (h : m.LeftQueue)
    (he : Evolved cfg m m') : m'.LeftQueue :=
  he.keeps (fun _ _ => leftQueue_change) h

theorem frozen_evolved {cfg : Settings} {m m' : Message} (h : m.LeftQueue)
    (he : Evolved cfg m m') :
    m' = { m with status := m'.status, updatedAt := m'.updatedAt } := by
  induction he with
  | refl => rfl
  | tail hprev hc ih =>
    rw [leftQueue_frozen (leftQueue_evolved h hprev) hc, ih]

/-- A row with a provider id has left the queue. -/
theorem RowInv.leftQueue {cfg : Settings} {m : Message} (h : RowInv cfg m)
    (hpid : m.providerMessageId.isSome) : m.LeftQueue := by
  constructor <;> intro hs
  · rw [(h.pending (.inl hs)).2.1] at hpid; cases hpid
  · rw [(h.pending (.inr hs)).2.1] at hpid; cases hpid

/-- An inbound row is received, or delivered by a receipt that carried its id. -/
theorem RowInv.inbound_status {cfg : Settings} {m : Message} (h : RowInv cfg m)
    (hdir : m.direction = .inbound) : m.status = .received ∨ m.status = .delivered := by
  have hout : m.direction ≠ .outbound := by
    rw [hdir]
    decide
  -- the other statuses are of outbound rows
  cases hs : m.status with
  | queued => exact absurd (h.pending (.inl hs)).1 hout
  | sending => exact absurd (h.pending (.inr hs)).1 hout
  | sent => exact absurd (h.sent hs).2.outbound hout
  | failed => exact absurd (h.failed hs).1 hout
  | published => exact absurd (h.published hs).1 hout
  | received => exact .inl rfl
  | delivered => exact .inr rfl

/-- A row never goes back to ntfy. -/
theorem not_ntfy_change {cfg : Settings} {m m' : Message} (h : m.transport ≠ .ntfy)
    (hc : Change cfg m m') : m'.transport ≠ .ntfy := by
  cases hc with
  | send now hs =>
    cases hs with
    | failure message permanent now' _ ht =>
      show (SendLoop.recordFailure cfg message permanent now' m).transport ≠ .ntfy
      rw [(recordFailure_cases cfg message permanent now' m).2.1]
      exact ht
    | fallBack => exact nofun
    | claim | requeue | sent => exact h
    | published _ _ _ ht => exact absurd ht h
  | poll | receipt => exact h

theorem not_ntfy_evolved {cfg : Settings} {m m' : Message} (h : m.transport ≠ .ntfy)
    (he : Evolved cfg m m') : m'.transport ≠ .ntfy :=
  he.keeps (P := fun x => x.transport ≠ .ntfy) (fun _ _ => not_ntfy_change) h

/-! ### New rows -/

/-- A row `send_message` creates satisfies the invariant. -/
theorem rowInv_newMessage (cfg : Settings) (service : String) (request : SendRequest)
    (id toNumber : String) (topic : Option String) (now : Time) :
    RowInv cfg (SendMessage.newMessage service request id toNumber topic now) where
  pending _ := ⟨rfl, rfl, rfl, by
    -- a new row has used none of at least one attempt
    have := cfg.one_le_attemptBound
    simp only [SendMessage.newMessage]
    push_cast
    omega⟩
  sent := nofun
  failed := nofun
  published := nofun
  ntfy _ := rfl
  sms := by cases topic <;> simp [SendMessage.newMessage]
  providerId := nofun
  delivered := nofun
  received := nofun

/-- The fixed columns of a row `android_gateway_inbound` creates. -/
theorem newMessage_inbound {lib : Lib} {draft : Inbound.Draft} {id : String} {now : Time}
    {m : Message} (h : Inbound.newMessage lib draft id now = some m) :
    m.id = id ∧ m.direction = .inbound ∧ m.status = .received ∧ m.transport = .sms ∧
      m.notificationTopic = none ∧ m.attempts = 0 ∧ m.idempotencyKey = none ∧
      ∃ pid, draft.providerId = .text pid ∧
        m.providerMessageId = if pid = "" then none else some pid := by
  unfold Inbound.newMessage at h
  split at h
  · next pid _ _ hpid =>
    cases h
    exact ⟨rfl, rfl, rfl, rfl, rfl, rfl, rfl, pid, PyStr.encode_eq_some.mp hpid, rfl⟩
  · cases h

/-- A row `android_gateway_inbound` creates satisfies the invariant. -/
theorem rowInv_inbound (cfg : Settings) {lib : Lib} {draft : Inbound.Draft} {id : String}
    {now : Time} {m : Message} (h : Inbound.newMessage lib draft id now = some m) :
    RowInv cfg m := by
  obtain ⟨-, hdir, hstatus, htr, htopic, hatt, -, -⟩ := newMessage_inbound h
  refine
    { pending := fun hq => ?_
      sent := fun hs => ?_
      failed := fun hs => ?_
      published := fun hs => ?_
      ntfy := fun _ => hatt
      sms := by simp [htr, htopic]
      providerId := fun hout => ?_
      delivered := fun hs => ?_
      received := fun _ => hdir }
  · rcases hq with hq | hq <;> rw [hstatus] at hq <;> cases hq
  · rw [hstatus] at hs; cases hs
  · rw [hstatus] at hs; cases hs
  · rw [hstatus] at hs; cases hs
  · -- The clause is about outbound rows
    rw [hdir] at hout; cases hout
  · rw [hstatus] at hs; cases hs

end SmsRelay
