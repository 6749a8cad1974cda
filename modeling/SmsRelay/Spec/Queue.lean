import SmsRelay.Spec.Invariant

/-!
# The queue

What the relay promises of every row of `messages` at every moment, and a small
deployment to replay traces in.

## Key results

- `queue_invariant`: the promise holds in every reachable state, whatever the parties,
  the network and crashes do
-/

namespace SmsRelay

open Transition

/-- The seven columns of a row that the send loop, the poller and the receipts couple. -/
structure QueueRow (cfg : Settings) (m : Message) : Prop where
  pending : m.status = .queued ∨ m.status = .sending →
    m.direction = .outbound ∧ m.providerMessageId = none ∧ m.sentAt = none ∧
      (m.attempts : Int) < max 1 cfg.maxAttempts
  sentAt : m.direction = .outbound → m.status = .sent ∨ m.status = .delivered →
    m.sentAt.isSome
  sent : m.status = .sent → m.error = none ∧
    (m.transport = .sms ∨ m.transport = .smsFallback) ∧
    1 ≤ m.attempts ∧ (m.attempts : Int) ≤ max 1 cfg.maxAttempts
  failed : m.status = .failed → (m.transport = .sms ∨ m.transport = .smsFallback) ∧
    1 ≤ m.attempts ∧ (m.attempts : Int) ≤ max 1 cfg.maxAttempts
  published : m.status = .published → m.transport = .ntfy ∧ m.attempts = 0 ∧
    ∃ receipt, m.providerMessageId = some ("ntfy:" ++ receipt)
  ntfy : m.transport = .ntfy → m.attempts = 0
  sms : m.transport = .sms ↔ m.notificationTopic = none

/-- A row that is not for ntfy goes out as a text message. -/
theorem sms_of_not_ntfy {m : Message} (h : m.transport ≠ .ntfy) :
    m.transport = .sms ∨ m.transport = .smsFallback := by
  cases ht : m.transport with
  | sms => exact .inl rfl
  | ntfy => exact absurd ht h
  | smsFallback => exact .inr rfl

/-- The inductive invariant of a row implies what the queue promises. -/
theorem RowInv.queueRow {cfg : Settings} {m : Message} (h : RowInv cfg m) : QueueRow cfg m where
  pending := h.pending
  sentAt hdir hs := by
    rcases hs with hs | hs
    · exact (h.sent hs).2.sentAt
    · exact h.delivered hs hdir
  sent hs :=
    have hp := (h.sent hs).2
    ⟨(h.sent hs).1, sms_of_not_ntfy hp.transport, hp.attempts_pos, hp.attempts_le⟩
  failed hs :=
    have ⟨_, ht, hpos, hle⟩ := h.failed hs
    ⟨sms_of_not_ntfy ht, hpos, hle⟩
  published hs :=
    have ⟨_, ht, hpid⟩ := h.published hs
    ⟨ht, h.ntfy ht, hpid⟩
  ntfy := h.ntfy
  sms := h.sms

/-- **The queue invariant.**  In every state a new deployment can reach, by any
    interleaving of its parties and any number of crashes, every row keeps the promise. -/
theorem queue_invariant {lib : Lib} {cfg : Settings} {env : Env} {tr : List Action} {t : Sys}
    (hrun : Run lib cfg (Sys.init env) tr t) : ∀ m ∈ t.db.messages, QueueRow cfg m :=
  fun m hm => ((inv_reachable hrun).row m hm).1.queueRow

/-! ## A deployment to replay -/

namespace Sample

/-- The library functions, on the values that the sample runs feed them. -/
def lib : Lib where
  phonenumbers candidate _ :=
    if candidate = "+12025550101" then .valid "+12025550101" else .unparsable "not a number"
  reprStr s := "'" ++ s.encode.getD "\\ud800" ++ "'"
  strOf _ := ""
  reSearch _ _ := .ok true
  realText _ := none
  fromisoformat _ := none
  isoformat _ := "1970-01-01T00:00:00"
  dumps _ := ""
  hmacSha256 _ _ := ""

def cfg : Settings where
  provider := .androidGateway
  defaultRegion := "US"
  maxAttempts := 5
  stuckAfterSeconds := 300
  retentionDays := 30
  ntfyUrl := ""

/-- No subscribers and no ntfy routes. -/
def env : Env := ⟨[], .ok []⟩

def request : SendRequest where
  recipients := .inl "+12025550101"
  body := "hello"
  idempotencyKey := none
  notificationPriority := 3
  body_length := by decide
  key_length := nofun
  priority_range := by decide

/-- `send_message` queues a message. -/
def queue (id : String) (now : Time) : List Action :=
  [.sendMessage 0 (.begin "svc" request), .sendMessage 0 (.create [id] now),
    .sendMessage 0 .commit]

/-- The send loop takes a message to its `POST`. -/
def post (id : String) (now : Time) : List Action :=
  [.send (.requeueSelect now now), .send (.claimSelect now (some id)), .send (.commit now),
    .send (.providerSend id)]

/-- The gateway's answer to the `POST`. -/
def answer (id : String) (status : Nat) (body : Option (Json PyStr)) (now : Time) : Action :=
  .send (.providerReply id
    (.gateway (.ok ⟨status, "", body.elim (.error .jsonDecodeError) .ok⟩)) now)

/-- A message goes out and is accepted under the gateway's id `g1`. -/
def sent : List Action :=
  queue "m1" 0 ++ post "m1" 1 ++
    [answer "m1" 202 (some (.obj [("id", .str "g1")])) 2, .send (.commit 2)]

/-- The gateway delivers an event to call `call`, which looks for it. -/
def deliver (call : Nat) (event : String) : List Action :=
  [.inbound call (.begin (.ok (.obj
    [("event", .str "sms:received"), ("id", .str event),
      ("payload", .obj [("phoneNumber", .str "+12025550101"), ("message", .str "hi")])]))),
    .inbound call .select]

/-- A handler past its lookup stores the message and its deliveries. -/
def store (call : Nat) (id : String) (deliveries : List String) (now : Time) : List Action :=
  [.inbound call (.flush id now), .inbound call (.enqueue deliveries now),
    .inbound call (.commit now)]

/-- One subscriber that wants every inbound message. -/
def subscribed : Env := ⟨[], .ok [⟨"app", "http://app", "", ["message.received"]⟩]⟩

/-- Two subscribers that want every inbound message. -/
def bothSubscribed : Env :=
  ⟨[], .ok [⟨"app", "http://app", "", ["message.received"]⟩,
    ⟨"log", "http://log", "", ["message.received"]⟩]⟩

/-- An inbound message and its delivery are stored. -/
def receive (call : Nat) (event id delivery : String) (now : Time) : List Action :=
  deliver call event ++ store call id [delivery] now

/-- The loop looks up the message of a delivery and posts it. -/
def postDelivery (id : String) (now : Time) : List Action :=
  [.fanout (.get [] now), .fanout (.post id)]

/-- The subscriber answers. -/
def webhookReply (id : String) (status : Nat) (now : Time) : Action :=
  .fanout (.posted id (.ok ⟨status, "", .error .jsonDecodeError⟩) now)

/-- The ids and statuses of the committed messages. -/
def statuses (s : Sys) : List (String × MessageStatus) :=
  s.db.messages.map fun m => (m.id, m.status)

/-- A listed id is on a row with that status. -/
theorem mem_of_statuses {s : Sys} {id : String} {status : MessageStatus}
    (h : (id, status) ∈ statuses s) : ∃ m ∈ s.db.messages, m.id = id ∧ m.status = status := by
  obtain ⟨m, hm, heq⟩ := List.mem_map.mp h
  obtain ⟨hid, hs⟩ := Prod.mk.inj heq
  exact ⟨m, hm, hid, hs⟩

end Sample

/-- The invariant at work on an accepted message. -/
theorem queue_invariant_sent : ∃ t, Run Sample.lib Sample.cfg (Sys.init Sample.env) Sample.sent t ∧
    Sample.statuses t = [("m1", .sent)] ∧ ∀ m ∈ t.db.messages, QueueRow Sample.cfg m := by
  obtain ⟨t, hrun, hrows⟩ : ∃ t, Run Sample.lib Sample.cfg (Sys.init Sample.env) Sample.sent t ∧
      Sample.statuses t = [("m1", .sent)] := run_of_exec_map (by decide +kernel)
  exact ⟨t, hrun, hrows, queue_invariant hrun⟩

end SmsRelay
