import SmsRelay.Native.Timestamps
import SmsRelay.Spec.Queue

/-!
# Comparing timestamps by their texts

The model's queries compare instants, SQLite compares the texts it has stored for them.  The
texts have one width and the more significant fields in front, so both agree on all times that
a `datetime` can hold; and what is read back from a column is what was written into it.

## Key results

- `storedText_lt_iff`: stored texts have the order of their times
- `not_lt_datetimeText_iff`: a text without a fraction stands for the beginning of its second
- `queries_by_text`: every query of the background loops selects by text what the model selects
-/

namespace SmsRelay

open Transition

/-! ## Texts and times -/

section
variable {t t' : Time}

/-- The distance to the beginning of year 1, in microseconds. -/
private theorem epoch_eq : days 719162 = 62135596800000000 := by decide

/-- A time is told by its ordinal. -/
private theorem ordinal_eq (h : Dated t) : (ordinal t : Int) = t + days 719162 :=
  Int.toNat_of_nonneg h.1

/-- **Stored texts have the order of their times.** -/
theorem storedText_lt_iff (h : Dated t) (h' : Dated t') :
    storedText t < storedText t' ↔ t < t' := by
  unfold storedText
  rw [Calendar.sorts_microText.lt_iff h.2 h'.2, ← Int.ofNat_lt, ordinal_eq h, ordinal_eq h']
  exact Int.add_lt_add_iff_right _

theorem not_storedText_lt_iff (h : Dated t) (h' : Dated t') :
    ¬ storedText t' < storedText t ↔ t ≤ t' := by
  rw [storedText_lt_iff h' h]
  exact Int.not_lt

/-- **What is written into a column is read back.** -/
theorem loadedTime_storedText (h : Dated t) : loadedTime (storedText t) = t := by
  unfold loadedTime storedText
  rw [Calendar.readMicro_microText h.2, ordinal_eq h]
  exact Int.add_sub_cancel _ _

/-- The first nine thousand years after year 1, at least, are times of a `datetime`. -/
theorem dated_of_le (h : -days 719162 ≤ t) (h' : t ≤ days 2900000) : Dated t := by
  have hcount := Calendar.le_dayCount
  have hbound : (days 719162 + days 2900000).toNat < 365 * 9999 * 86400 * 1000000 := by decide
  have hle : t + days 719162 ≤ days 719162 + days 2900000 := by
    rw [Int.add_comm]
    exact Int.add_le_add_left h' _
  have hge : -days 719162 + days 719162 ≤ t + days 719162 := Int.add_le_add_right h _
  refine ⟨by rwa [Int.add_left_neg] at hge, ?_⟩
  have hnat : ordinal t ≤ (days 719162 + days 2900000).toNat := Int.toNat_le_toNat hle
  omega

/-- The beginning of the second of a time. -/
def wholeSecond (t : Time) : Time := t / 1000000 * 1000000

/-- **A text without a fraction stands for the beginning of its second.** -/
theorem not_lt_datetimeText_iff (h : Dated t) (h' : Dated t') :
    ¬ storedText t' < datetimeText t ↔ wholeSecond t ≤ t' := by
  have ht := ordinal_eq h
  have ht' := ordinal_eq h'
  have hsecond : ordinal t / 1000000 < Calendar.dayCount * 86400 :=
    Nat.div_lt_of_lt_mul (by rw [Nat.mul_comm]; exact h.2)
  unfold datetimeText storedText wholeSecond
  rw [Calendar.microText_lt_secondText h'.2 hsecond]
  rw [epoch_eq] at ht ht'
  -- the beginning of year 1 is the beginning of a second
  show ¬ ordinal t' / 1000000 < ordinal t / 1000000 ↔ @LE.le Int _ (t / 1000000 * 1000000) t'
  omega

end

/-! ## Rows -/

/-- The times of a row. -/
def Message.times (m : Message) : List Time :=
  m.createdAt :: m.updatedAt :: (m.nextAttemptAt.toList ++ m.sentAt.toList)

/-- The times of a row. -/
def WebhookDelivery.times (d : WebhookDelivery) : List Time :=
  d.createdAt :: d.updatedAt :: d.nextAttemptAt.toList

/-- The times in the database. -/
def Store.times (db : Store) : List Time :=
  db.messages.flatMap Message.times ++ db.deliveries.flatMap WebhookDelivery.times

/-- The times that the loops compute from the clock are ones that a `datetime` can hold. -/
structure ClockDated (cfg : Settings) (now : Time) : Prop where
  clock : Dated now
  stuck : Dated (now - seconds cfg.stuckAfterSeconds)
  poll : Dated (now - days 1)
  retention : Dated (now - days cfg.retentionDays)

/-- On this database the statements of the loops select by text what the model selects by
    time, in the same order, and the columns are read as they were written. -/
structure SelectsByText (cfg : Settings) (now : Time) (db : Store) : Prop where
  stuck : db.messages.filter (Sql.isStuck cfg now) =
    db.messages.filter (SendLoop.isStuck cfg now)
  due : db.messages.filter (Sql.isDue now) = db.messages.filter (SendLoop.isDue now)
  polled : db.messages.filter (Sql.isPolled now) = db.messages.filter (StatusLoop.isPolled now)
  pruned : (prune cfg now db).messages = db.messages.filter fun m => !Sql.isPrunable cfg now m
  deliveries : db.deliveries.filter (Sql.isDueDelivery now) = FanoutLoop.due db now
  order : ∀ m ∈ db.messages, ∀ m' ∈ db.messages,
    (Sql.comesBefore m.createdAt m'.createdAt ↔ m.createdAt < m'.createdAt)
  deliveryOrder : ∀ d ∈ db.deliveries, ∀ d' ∈ db.deliveries,
    (Sql.comesBefore d.createdAt d'.createdAt ↔ d.createdAt < d'.createdAt)
  loads : ∀ t ∈ db.times, loadedTime (storedText t) = t

section
variable {cfg : Settings} {now : Time} {db : Store} {m : Message} {d : WebhookDelivery}

theorem sql_isStuck (hm : ∀ t ∈ m.times, Dated t) (hclock : ClockDated cfg now) :
    Sql.isStuck cfg now m = SendLoop.isStuck cfg now m := by
  have hupdated : Dated m.updatedAt := hm _ (by simp [Message.times])
  simp only [Sql.isStuck, SendLoop.isStuck, storedText_lt_iff hupdated hclock.stuck]

theorem sql_isDue (hm : ∀ t ∈ m.times, Dated t) (hclock : ClockDated cfg now) :
    Sql.isDue now m = SendLoop.isDue now m := by
  unfold Sql.isDue SendLoop.isDue
  cases hnext : m.nextAttemptAt with
  | none => rfl
  | some t =>
    have ht : Dated t := hm t (by simp [Message.times, hnext])
    simp only [Sql.isReady, not_storedText_lt_iff ht hclock.clock]

theorem sql_isPolled (hm : ∀ t ∈ m.times, Dated t) (hclock : ClockDated cfg now) :
    Sql.isPolled now m = StatusLoop.isPolled now m := by
  unfold Sql.isPolled StatusLoop.isPolled
  cases hsent : m.sentAt with
  | none => rfl
  | some t =>
    have ht : Dated t := hm t (by simp [Message.times, hsent])
    simp only [storedText_lt_iff hclock.poll ht]

theorem sql_isPrunable (hm : ∀ t ∈ m.times, Dated t) (hclock : ClockDated cfg now) :
    Sql.isPrunable cfg now m = SmsRelay.isPrunable cfg now m := by
  have hcreated : Dated m.createdAt := hm _ (by simp [Message.times])
  simp only [Sql.isPrunable, SmsRelay.isPrunable, storedText_lt_iff hcreated hclock.retention]

theorem sql_isDueDelivery (hd : ∀ t ∈ d.times, Dated t) (hclock : ClockDated cfg now) :
    Sql.isDueDelivery now d = FanoutLoop.isDue now d := by
  unfold Sql.isDueDelivery FanoutLoop.isDue
  cases hnext : d.nextAttemptAt with
  | none => rfl
  | some t =>
    have ht : Dated t := hd t (by simp [WebhookDelivery.times, hnext])
    simp only [Sql.isReady, not_storedText_lt_iff ht hclock.clock]

/-- **Every query of the background loops selects by text what the model selects by time.** -/
theorem queries_by_text (hrows : ∀ t ∈ db.times, Dated t) (hclock : ClockDated cfg now) :
    SelectsByText cfg now db := by
  have hmessage : ∀ m ∈ db.messages, ∀ t ∈ m.times, Dated t := fun m hm t ht =>
    hrows t (List.mem_append_left _ (List.mem_flatMap.mpr ⟨m, hm, ht⟩))
  have hdelivery : ∀ d ∈ db.deliveries, ∀ t ∈ d.times, Dated t := fun d hd t ht =>
    hrows t (List.mem_append_right _ (List.mem_flatMap.mpr ⟨d, hd, ht⟩))
  constructor
  case stuck => exact List.filter_congr fun m hm => sql_isStuck (hmessage m hm) hclock
  case due => exact List.filter_congr fun m hm => sql_isDue (hmessage m hm) hclock
  case polled => exact List.filter_congr fun m hm => sql_isPolled (hmessage m hm) hclock
  case pruned =>
    show db.messages.filter _ = _
    exact List.filter_congr fun m hm => by rw [sql_isPrunable (hmessage m hm) hclock]
  case deliveries => exact List.filter_congr fun d hd => sql_isDueDelivery (hdelivery d hd) hclock
  case order =>
    intro m hm m' hm'
    have hdated : ∀ r ∈ db.messages, Dated r.createdAt :=
      fun r hr => hmessage r hr _ (by simp [Message.times])
    simp only [Sql.comesBefore, storedText_lt_iff (hdated m hm) (hdated m' hm'), decide_eq_true_eq]
  case deliveryOrder =>
    intro d hd d' hd'
    have hdated : ∀ r ∈ db.deliveries, Dated r.createdAt :=
      fun r hr => hdelivery r hr _ (by simp [WebhookDelivery.times])
    simp only [Sql.comesBefore, storedText_lt_iff (hdated d hd) (hdated d' hd'), decide_eq_true_eq]
  case loads => exact fun t ht => loadedTime_storedText (hrows t ht)

end

namespace Sample

/-- A text comes in while a message is sent. -/
def sentAndReceived : List Action := sent ++ receive 0 "e1" "m2" "d1" 3

end Sample

/-- The tables a day later. -/
theorem queries_by_text_sent : ∃ t, Run Sample.lib Sample.cfg (Sys.init Sample.subscribed)
      Sample.sentAndReceived t ∧ t.db.times = [0, 2, 0, 2, 3, 3, 3, 3, 3] ∧
    SelectsByText Sample.cfg (days 1) t.db := by
  obtain ⟨t, hrun, htimes⟩ : ∃ t, Run Sample.lib Sample.cfg (Sys.init Sample.subscribed)
      Sample.sentAndReceived t ∧ t.db.times = [0, 2, 0, 2, 3, 3, 3, 3, 3] :=
    run_of_exec_map (f := fun u : Sys => u.db.times) (by decide +kernel)
  refine ⟨t, hrun, htimes, queries_by_text ?_ ?_⟩
  · rw [htimes]
    intro u hu
    have hsmall : ∀ u ∈ ([0, 2, 0, 2, 3, 3, 3, 3, 3] : List Time), -days 719162 ≤ u ∧
        u ≤ days 2900000 := by decide
    exact dated_of_le (hsmall u hu).1 (hsmall u hu).2
  · constructor <;> exact dated_of_le (by decide) (by decide)

end SmsRelay
