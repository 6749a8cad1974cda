import Mathlib.Data.List.Nodup
import Mathlib.Data.List.Basic
import SmsRelay.Native.Models

/-!
# The committed database

`Store` holds the committed rows of both tables, oldest row first, together with the
constraints the schema declares.  Every write goes through `Store.ofRows`, which
stands for the checks SQLite makes: a transaction that would break a constraint is
refused as a whole and leaves nothing behind.
-/

namespace SmsRelay

open UnitOfWork

/-- What `uq_messages_service_idem` compares: rows with a `NULL` key never collide. -/
def Message.idemKey (m : Message) : Option (String × String) :=
  m.idempotencyKey.map fun key => (m.service, key)

/-- The constraints of the schema. -/
structure Integrity (messages : List Message) (deliveries : List WebhookDelivery) : Prop where
  pkMessages : (messages.map Message.id).Nodup
  /-- `uq_messages_service_idem` -/
  uqServiceIdem : (messages.filterMap Message.idemKey).Nodup
  pkDeliveries : (deliveries.map WebhookDelivery.id).Nodup
  /-- `uq_delivery_message_subscriber` -/
  uqMessageSubscriber : (deliveries.map fun d => (d.messageId, d.subscriber)).Nodup
  /-- `ForeignKey("messages.id")`, with `foreign_keys=ON`. -/
  fkMessage : ∀ d ∈ deliveries, d.messageId ∈ messages.map Message.id

instance (messages : List Message) (deliveries : List WebhookDelivery) :
    Decidable (Integrity messages deliveries) :=
  decidable_of_iff
    ((messages.map Message.id).Nodup ∧ (messages.filterMap Message.idemKey).Nodup ∧
      (deliveries.map WebhookDelivery.id).Nodup ∧
      (deliveries.map fun d => (d.messageId, d.subscriber)).Nodup ∧
      ∀ d ∈ deliveries, d.messageId ∈ messages.map Message.id)
    ⟨fun ⟨h₁, h₂, h₃, h₄, h₅⟩ => ⟨h₁, h₂, h₃, h₄, h₅⟩,
      fun ⟨h₁, h₂, h₃, h₄, h₅⟩ => ⟨h₁, h₂, h₃, h₄, h₅⟩⟩

/-- The committed rows, in insertion order. -/
structure Store where
  messages : List Message
  deliveries : List WebhookDelivery
  integrity : Integrity messages deliveries

namespace Store

/-- The database `init_db` creates. -/
def empty : Store := ⟨[], [], by decide⟩

/-- Commit a new content of the tables; `none` is an `IntegrityError`. -/
def ofRows (messages : List Message) (deliveries : List WebhookDelivery) : Option Store :=
  if h : Integrity messages deliveries then some ⟨messages, deliveries, h⟩ else none

/-- `session.add_all(created)` and `session.commit()`. -/
def insertMessages (db : Store) (created : List Message) : Option Store :=
  ofRows (db.messages ++ created) db.deliveries

/-- The transaction of one inbound message with its deliveries. -/
def insertInbound (db : Store) (message : Message) (created : List WebhookDelivery) :
    Option Store :=
  ofRows (db.messages ++ [message]) (db.deliveries ++ created)

/-- `session.commit()` of changed `Message` objects; `none` is a `StaleDataError`,
    raised because an `UPDATE` matched no row. -/
def updateMessages (db : Store) (now : Time) (objs : List (Tracked Message)) : Option Store :=
  (flush now objs db.messages).bind fun messages => ofRows messages db.deliveries

/-- `session.commit()` of changed `WebhookDelivery` objects. -/
def updateDeliveries (db : Store) (now : Time) (objs : List (Tracked WebhookDelivery)) :
    Option Store :=
  (flush now objs db.deliveries).bind fun deliveries => ofRows db.messages deliveries

/-- `DELETE FROM messages WHERE p` with `ON DELETE CASCADE`. -/
def deleteMessages (db : Store) (p : Message → Bool) : Store where
  messages := db.messages.filter fun m => !p m
  deliveries := db.deliveries.filter fun d =>
    d.messageId ∈ (db.messages.filter fun m => !p m).map Message.id
  integrity :=
    { pkMessages := db.integrity.pkMessages.sublist (List.filter_sublist.map _)
      uqServiceIdem := db.integrity.uqServiceIdem.sublist (List.filter_sublist.filterMap _)
      pkDeliveries := db.integrity.pkDeliveries.sublist (List.filter_sublist.map _)
      uqMessageSubscriber :=
        db.integrity.uqMessageSubscriber.sublist (List.filter_sublist.map _)
      fkMessage := fun d hd => by simpa using (List.mem_filter.mp hd).2 }

/-- `session.get(Message, id)` on an empty identity map. -/
def message? (db : Store) (id : String) : Option Message :=
  db.messages.find? fun m => m.id = id

variable {db db' : Store} {now : Time}

theorem ofRows_eq_some {messages : List Message} {deliveries : List WebhookDelivery} :
    ofRows messages deliveries = some db ↔
      db.messages = messages ∧ db.deliveries = deliveries := by
  unfold ofRows
  split
  · next h =>
    obtain ⟨ms, ds, hi⟩ := db
    simp [eq_comm]
  · next h =>
    simp only [reduceCtorEq, false_iff]
    rintro ⟨rfl, rfl⟩
    exact h db.integrity

/-- Two rows with one primary key are one row. -/
theorem eq_of_id {m m' : Message} (hm : m ∈ db.messages) (hm' : m' ∈ db.messages)
    (h : m.id = m'.id) : m = m' :=
  List.inj_on_of_nodup_map db.integrity.pkMessages hm hm' h

/-- Two deliveries with one primary key are one row. -/
theorem eq_of_deliveryId {d d' : WebhookDelivery} (hd : d ∈ db.deliveries)
    (hd' : d' ∈ db.deliveries) (h : d.id = d'.id) : d = d' :=
  List.inj_on_of_nodup_map db.integrity.pkDeliveries hd hd' h

/-- Two rows with one `(service, idempotency_key)` are one row. -/
theorem eq_of_idemKey {m m' : Message} {k : String × String} (hm : m ∈ db.messages)
    (hm' : m' ∈ db.messages) (h : m.idemKey = some k) (h' : m'.idemKey = some k) : m = m' := by
  have hnd := db.integrity.uqServiceIdem
  generalize db.messages = rows at hm hm' hnd
  induction rows with
  | nil => simp at hm
  | cons r rows ih =>
    -- a second row with the key would put the key into the list twice
    have hmem : ∀ x ∈ rows, x.idemKey = some k → k ∈ rows.filterMap Message.idemKey :=
      fun x hx hk => List.mem_filterMap.mpr ⟨x, hx, hk⟩
    rcases List.mem_cons.mp hm with heq | hrow <;> rcases List.mem_cons.mp hm' with heq' | hrow'
    · rw [heq, heq']
    · rw [← heq, List.filterMap_cons_some h, List.nodup_cons] at hnd
      exact absurd (hmem _ hrow' h') hnd.1
    · rw [← heq', List.filterMap_cons_some h', List.nodup_cons] at hnd
      exact absurd (hmem _ hrow h) hnd.1
    · exact ih hrow hrow' (hnd.sublist ((List.sublist_cons_self r rows).filterMap _))

/-- A query whose results do not differ finds one row at most. -/
theorem select_cases {p : Message → Bool}
    (h : ∀ m ∈ db.messages.filter p, ∀ m' ∈ db.messages.filter p, m = m') :
    db.messages.filter p = [] ∨ ∃ m, db.messages.filter p = [m] := by
  have hnd : (db.messages.filter p).Nodup :=
    (List.Nodup.of_map _ db.integrity.pkMessages).filter _
  cases hrows : db.messages.filter p with
  | nil => exact .inl rfl
  | cons m rows =>
    rw [hrows] at h hnd
    cases rows with
    | nil => exact .inr ⟨m, rfl⟩
    | cons m' rows =>
      -- a second result would be the same row again
      obtain rfl := h m (by simp) m' (by simp)
      simp at hnd

theorem message?_eq_some {id : String} {m : Message} :
    db.message? id = some m ↔ m ∈ db.messages ∧ m.id = id := by
  constructor
  · intro h
    exact ⟨List.mem_of_find?_eq_some h, by simpa using List.find?_some h⟩
  · rintro ⟨hm, rfl⟩
    cases hfind : db.message? m.id with
    | none =>
      have hne : m.id ≠ m.id := by simpa using List.find?_eq_none.mp hfind m hm
      exact absurd rfl hne
    | some m' =>
      have hid : m'.id = m.id := by simpa using List.find?_some hfind
      rw [eq_of_id (List.mem_of_find?_eq_some hfind) hm hid]

/-- A transaction is refused exactly when it breaks a constraint. -/
theorem isSome_ofRows {messages : List Message} {deliveries : List WebhookDelivery} :
    (ofRows messages deliveries).isSome ↔ Integrity messages deliveries := by
  unfold ofRows
  split
  · next h => simpa using h
  · next h => simpa using h

/-- What an `INSERT` of messages needs to succeed. -/
theorem isSome_insertMessages {created : List Message} :
    (db.insertMessages created).isSome ↔
      ((db.messages ++ created).map Message.id).Nodup ∧
        ((db.messages ++ created).filterMap Message.idemKey).Nodup := by
  rw [insertMessages, isSome_ofRows]
  constructor
  · intro h
    exact ⟨h.pkMessages, h.uqServiceIdem⟩
  · rintro ⟨hpk, huq⟩
    refine ⟨hpk, huq, db.integrity.pkDeliveries, db.integrity.uqMessageSubscriber, fun d hd => ?_⟩
    rw [List.map_append]
    exact List.mem_append_left _ (db.integrity.fkMessage d hd)

/-- Rows under new ids only have their idempotency keys to collide with. -/
theorem isSome_insertMessages_of_new {created : List Message}
    (hnd : (created.map Message.id).Nodup)
    (hnew : ∀ m ∈ db.messages, ∀ r ∈ created, m.id ≠ r.id) :
    (db.insertMessages created).isSome ↔
      ((db.messages ++ created).filterMap Message.idemKey).Nodup := by
  have hpk : ((db.messages ++ created).map Message.id).Nodup := by
    rw [List.map_append, List.nodup_append]
    refine ⟨db.integrity.pkMessages, hnd, fun id hid id' hid' heq => ?_⟩
    obtain ⟨m, hm, rfl⟩ := List.mem_map.mp hid
    obtain ⟨r, hr, rfl⟩ := List.mem_map.mp hid'
    exact hnew m hm r hr heq
  rw [isSome_insertMessages]
  exact and_iff_right hpk

/-- What the transaction of an inbound message needs to succeed. -/
theorem isSome_insertInbound {message : Message} {created : List WebhookDelivery} :
    (db.insertInbound message created).isSome ↔
      Integrity (db.messages ++ [message]) (db.deliveries ++ created) :=
  isSome_ofRows

/-- What a successful `INSERT` of messages leaves. -/
theorem insertMessages_eq_some {created : List Message} :
    db.insertMessages created = some db' ↔
      db'.messages = db.messages ++ created ∧ db'.deliveries = db.deliveries := by
  simp only [insertMessages, ofRows_eq_some]

/-- What a successful inbound transaction leaves. -/
theorem insertInbound_eq_some {message : Message} {created : List WebhookDelivery} :
    db.insertInbound message created = some db' ↔
      db'.messages = db.messages ++ [message] ∧ db'.deliveries = db.deliveries ++ created := by
  simp only [insertInbound, ofRows_eq_some]

/-- What a successful commit of changed messages leaves. -/
theorem updateMessages_eq_some {objs : List (Tracked Message)} :
    db.updateMessages now objs = some db' ↔
      Matched objs db.messages ∧ db'.messages = db.messages.map (flushRow now objs) ∧
        db'.deliveries = db.deliveries := by
  simp only [updateMessages, Option.bind_eq_some_iff, flush_eq_some, ofRows_eq_some]
  constructor
  · rintro ⟨_, ⟨hmatched, rfl⟩, hms, hds⟩
    exact ⟨hmatched, hms, hds⟩
  · rintro ⟨hmatched, hms, hds⟩
    exact ⟨_, ⟨hmatched, rfl⟩, hms, hds⟩

/-- What a successful commit of changed deliveries leaves. -/
theorem updateDeliveries_eq_some {objs : List (Tracked WebhookDelivery)} :
    db.updateDeliveries now objs = some db' ↔
      Matched objs db.deliveries ∧ db'.deliveries = db.deliveries.map (flushRow now objs) ∧
        db'.messages = db.messages := by
  simp only [updateDeliveries, Option.bind_eq_some_iff, flush_eq_some, ofRows_eq_some]
  constructor
  · rintro ⟨_, ⟨hmatched, rfl⟩, hms, hds⟩
    exact ⟨hmatched, hds, hms⟩
  · rintro ⟨hmatched, hds, hms⟩
    exact ⟨_, ⟨hmatched, rfl⟩, hms, hds⟩

theorem mem_deleteMessages {p : Message → Bool} {m : Message} :
    m ∈ (db.deleteMessages p).messages ↔ m ∈ db.messages ∧ p m = false := by
  simp [deleteMessages]

end Store

end SmsRelay
