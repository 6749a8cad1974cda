import SmsRelay.Native.Models

/-!
# Responses of the public API

The models of `sms_relay/schemas.py` that the send and query API answers with.
-/

namespace SmsRelay

/-- The value of the enumeration in its column. -/
def Direction.value : Direction → String
  | .outbound => "outbound"
  | .inbound => "inbound"

/-- The value of the enumeration in its column. -/
def MessageStatus.value : MessageStatus → String
  | .queued => "queued"
  | .sending => "sending"
  | .sent => "sent"
  | .delivered => "delivered"
  | .failed => "failed"
  | .published => "published"
  | .received => "received"

/-- The text of the column. -/
def Transport.value : Transport → String
  | .sms => "sms"
  | .ntfy => "ntfy"
  | .smsFallback => "sms-fallback"

/-- A `datetime` read back from SQLite, which keeps no `tzinfo`. -/
def DateTime.loaded (t : Time) : DateTime := ⟨t, none⟩

/-- A `datetime` that `utcnow` has just given. -/
def DateTime.current (t : Time) : DateTime := ⟨t, some 0⟩

structure MessageOut where
  id : String
  direction : String
  status : String
  /-- `to` -/
  toNumber : Option String
  /-- `from` -/
  fromNumber : Option String
  body : String
  service : String
  attempts : Nat
  transport : String
  notificationTopic : Option String
  notificationPriority : Int
  providerMessageId : Option String
  error : Option String
  createdAt : DateTime
  updatedAt : DateTime
  sentAt : Option DateTime
  deriving DecidableEq, Repr

/-- `MessageOut.of(message)`, where `stamp` says what the object's timestamps are. -/
def MessageOut.of (stamp : Time → DateTime) (m : Message) : MessageOut where
  id := m.id
  direction := m.direction.value
  status := m.status.value
  toNumber := m.toNumber
  fromNumber := m.fromNumber
  body := m.body
  service := m.service
  attempts := m.attempts
  transport := m.transport.value
  notificationTopic := m.notificationTopic
  notificationPriority := m.notificationPriority
  providerMessageId := m.providerMessageId
  error := m.error
  createdAt := stamp m.createdAt
  updatedAt := stamp m.updatedAt
  sentAt := m.sentAt.map stamp

structure SendResponse where
  messages : List MessageOut
  deriving DecidableEq, Repr

structure MessageList where
  messages : List MessageOut
  total : Nat
  deriving DecidableEq, Repr

end SmsRelay
