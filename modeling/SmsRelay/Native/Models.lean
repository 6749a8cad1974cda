import SmsRelay.ForStd.UnitOfWork
import SmsRelay.Native.Python

/-!
# Persistence model

The rows of the two tables, as `sms_relay/models.py` declares them, and the
`UPDATE` that the session issues for a changed object of each.
-/

namespace SmsRelay

open UnitOfWork

inductive Direction where
  | outbound
  | inbound
  deriving DecidableEq, Repr

inductive MessageStatus where
  | queued
  | sending
  /-- Handed to the provider. -/
  | sent
  /-- The provider confirmed handset delivery. -/
  | delivered
  /-- Retries exhausted, or a permanent error. -/
  | failed
  /-- Accepted by ntfy, not handset-delivery confirmation. -/
  | published
  /-- Inbound only. -/
  | received
  deriving DecidableEq, Repr

/-- Statuses a message can never leave, by the comment on the constant. -/
def terminalStatuses : List MessageStatus :=
  [.delivered, .failed, .received, .published]

/-- The three values the `transport` column takes. -/
inductive Transport where
  | sms
  | ntfy
  | smsFallback
  deriving DecidableEq, Repr

/-- A row of `messages`. -/
structure Message where
  id : String
  direction : Direction
  status : MessageStatus
  toNumber : Option String
  fromNumber : Option String
  body : String
  service : String
  idempotencyKey : Option String
  transport : Transport
  notificationTopic : Option String
  notificationPriority : Int
  attempts : Nat
  nextAttemptAt : Option Time
  providerMessageId : Option String
  error : Option String
  createdAt : Time
  updatedAt : Time
  sentAt : Option Time
  deriving DecidableEq, Repr

inductive DeliveryStatus where
  | pending
  | delivered
  | failed
  | cancelled
  deriving DecidableEq, Repr

/-- A row of `webhook_deliveries`: the fan-out of one inbound message to one
    subscriber. -/
structure WebhookDelivery where
  id : String
  messageId : String
  subscriber : String
  url : String
  status : DeliveryStatus
  attempts : Nat
  nextAttemptAt : Option Time
  responseCode : Option Nat
  error : Option String
  createdAt : Time
  updatedAt : Time
  deriving DecidableEq, Repr

/-- `onupdate=utcnow`: an `UPDATE` that does not set `updated_at` itself stamps it.  Here an
    `updated_at` that is assigned the value it was loaded with counts as not set: an
    assignment at the microsecond of the load would be kept by the code. -/
def onUpdate (now loaded current : Time) : Time :=
  if current = loaded then now else current

instance : Entity Message String Time where
  key := Message.id
  update now loaded current row :=
    { id := column loaded.id current.id row.id
      direction := column loaded.direction current.direction row.direction
      status := column loaded.status current.status row.status
      toNumber := column loaded.toNumber current.toNumber row.toNumber
      fromNumber := column loaded.fromNumber current.fromNumber row.fromNumber
      body := column loaded.body current.body row.body
      service := column loaded.service current.service row.service
      idempotencyKey := column loaded.idempotencyKey current.idempotencyKey row.idempotencyKey
      transport := column loaded.transport current.transport row.transport
      notificationTopic :=
        column loaded.notificationTopic current.notificationTopic row.notificationTopic
      notificationPriority :=
        column loaded.notificationPriority current.notificationPriority row.notificationPriority
      attempts := column loaded.attempts current.attempts row.attempts
      nextAttemptAt := column loaded.nextAttemptAt current.nextAttemptAt row.nextAttemptAt
      providerMessageId :=
        column loaded.providerMessageId current.providerMessageId row.providerMessageId
      error := column loaded.error current.error row.error
      createdAt := column loaded.createdAt current.createdAt row.createdAt
      updatedAt := onUpdate now loaded.updatedAt current.updatedAt
      sentAt := column loaded.sentAt current.sentAt row.sentAt }
  key_update now loaded current row h := by
    simp only [h, column_unchanged]

instance : Entity WebhookDelivery String Time where
  key := WebhookDelivery.id
  update now loaded current row :=
    { id := column loaded.id current.id row.id
      messageId := column loaded.messageId current.messageId row.messageId
      subscriber := column loaded.subscriber current.subscriber row.subscriber
      url := column loaded.url current.url row.url
      status := column loaded.status current.status row.status
      attempts := column loaded.attempts current.attempts row.attempts
      nextAttemptAt := column loaded.nextAttemptAt current.nextAttemptAt row.nextAttemptAt
      responseCode := column loaded.responseCode current.responseCode row.responseCode
      error := column loaded.error current.error row.error
      createdAt := column loaded.createdAt current.createdAt row.createdAt
      updatedAt := onUpdate now loaded.updatedAt current.updatedAt }
  key_update now loaded current row h := by
    simp only [h, column_unchanged]

namespace Message

@[simp] theorem key_eq (m : Message) : Entity.key m = m.id := rfl

/-- On a row that is still as loaded, the `UPDATE` writes the object as the program
    left it, up to the `updated_at` stamp. -/
theorem update_loaded (now : Time) (loaded current : Message) :
    Entity.update now loaded current loaded =
      { current with updatedAt := onUpdate now loaded.updatedAt current.updatedAt } := by
  simp [Entity.update]

/-- In the session, a flushed object only gains the `updated_at` stamp. -/
theorem update_current (now : Time) (loaded current : Message) :
    Entity.update now loaded current current =
      { current with updatedAt := onUpdate now loaded.updatedAt current.updatedAt } := by
  simp [Entity.update]

/-- An object on which only the status was assigned writes the status and the stamp. -/
theorem update_status (now : Time) (loaded row : Message) (status : MessageStatus) :
    Entity.update now loaded { loaded with status := status } row =
      { row with status := column loaded.status status row.status, updatedAt := now } := by
  simp [Entity.update, onUpdate]

/-- The row an object leaves in the table, when the row was still as loaded, is the
    object the session holds on to. -/
theorem writeTo_loaded (now : Time) (o : Tracked Message) :
    o.writeTo now o.loaded = o.saved now := by
  unfold Tracked.writeTo Tracked.saved
  by_cases h : o.Dirty
  · simp only [h, and_self, if_true, update_loaded, update_current]
  · have heq : o.current = o.loaded := not_not.mp h
    simp [h, heq]

end Message

namespace WebhookDelivery

@[simp] theorem key_eq (d : WebhookDelivery) : Entity.key d = d.id := rfl

/-- On a row that is still as loaded, the `UPDATE` writes the object as the program
    left it, up to the `updated_at` stamp. -/
theorem update_loaded (now : Time) (loaded current : WebhookDelivery) :
    Entity.update now loaded current loaded =
      { current with updatedAt := onUpdate now loaded.updatedAt current.updatedAt } := by
  simp [Entity.update]

end WebhookDelivery

end SmsRelay
