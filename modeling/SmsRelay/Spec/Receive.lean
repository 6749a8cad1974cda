import SmsRelay.ForStd.Except
import SmsRelay.Spec.Calls
import SmsRelay.Spec.Fanout

/-!
# Receiving a text message

What `android_gateway_inbound` does with an event that carries a text: the row it stores,
and the deliveries it stores in the same transaction.  The subscribers are read once, the
names already stored are read once before the loop over them, and the unique constraint is
only checked at the commit.

A `str` may hold surrogates, which sqlite3 refuses to bind: whatever of the event or of the
subscribers is to be stored must have none.

## Key results

- `insertInbound_iff`: a message and its deliveries can be committed when no two of the
  subscribers share a name
- `completes_iff`: what a call needs to store its message
- `exists_completes_iff`: which texts are stored
-/

namespace SmsRelay

open Transition Webhooks

/-- What `enqueue_fanout` stores of a subscriber can be bound. -/
def Subscriber.Bindable (sub : Subscriber) : Prop :=
  sub.name.encode.isSome ∧ sub.url.encode.isSome

instance : DecidablePred Subscriber.Bindable := fun _ => inferInstanceAs (Decidable (_ ∧ _))

/-- The deliveries of a message can be stored: the subscriber list can be read, no two of
    the subscribers to inbound messages have one name, and what is stored of them can be
    bound. -/
def Env.Fannable (env : Env) : Prop :=
  ∃ subs, env.subscribers = .ok subs ∧ ((interested subs).map Subscriber.name).Nodup ∧
    ∀ sub ∈ interested subs, sub.Bindable

namespace Inbound

/-! ## The handler up to its row -/

/-- The event carries a text message. -/
def IsText (event : List (PyStr × Json PyStr)) : Prop :=
  (Json.lookup event "event").getD (.str "sms:received") = .str "sms:received" ∨
    (Json.lookup event "event").getD (.str "sms:received") = .str "message.received"

/-- The draft of an event, given its sender. -/
def draftOf (lib : Lib) (event : List (PyStr × Json PyStr)) (number : Option PyStr) : Draft :=
  ⟨number, (extract lib event).body, (extract lib event).providerId,
    (extract lib event).receivedAt⟩

/-- The sender is a `str`, or there is none. -/
def StringOrFalsy (sender : Json PyStr) : Prop := sender.truthy = true → ∃ raw, sender = .str raw

/-- The sender to store: the E.164 form of a string that normalizes, the first characters
    of the string form of any other value, nothing when there is none. -/
def expectedFrom (lib : Lib) (cfg : Settings) (sender : Json PyStr) : Option PyStr :=
  if sender.truthy then
    match normalize lib cfg sender with
    | .ok e164 => some e164
    | .error _ => some ((lib.str sender).sliceTo 20)
  else none

/-- What is to be stored of the event can be bound: its text, the number of its sender and
    its id. -/
structure Bindable (lib : Lib) (cfg : Settings) (event : List (PyStr × Json PyStr)) (text : PyStr) :
    Prop where
  text : text.encode.isSome
  sender : ∀ number ∈ expectedFrom lib cfg (extract lib event).sender, number.encode.isSome
  providerId : (extract lib event).providerId.encode.isSome

section
variable {lib : Lib} {cfg : Settings} {event : List (PyStr × Json PyStr)} {text : PyStr}
  {number : Option PyStr}

/-- `normalize` raises `InvalidPhoneNumber` and nothing else on a `str`. -/
theorem normalize_str (lib : Lib) (cfg : Settings) (raw : PyStr) :
    (∃ e164, normalize lib cfg (.str raw) = .ok e164) ∨
      ∃ exc, normalize lib cfg (.str raw) = .error (.invalidPhoneNumber exc) := by
  unfold normalize
  split
  · dsimp only
    split
    · exact .inr ⟨_, rfl⟩
    · split
      · exact .inr ⟨_, rfl⟩
      · exact .inr ⟨_, rfl⟩
      · exact .inl ⟨_, rfl⟩
  · exact .inr ⟨_, rfl⟩

/-- **The sender raises nothing exactly when it is a `str` or falsy**, and then the number
    is the expected one. -/
theorem fromNumber_eq_ok {sender : Json PyStr} :
    fromNumber lib cfg sender = .ok number ↔
      StringOrFalsy sender ∧ number = expectedFrom lib cfg sender := by
  cases htruthy : sender.truthy with
  | false => simp [fromNumber, StringOrFalsy, expectedFrom, htruthy, eq_comm]
  | true =>
    cases sender with
    | str raw =>
      obtain ⟨e164, h⟩ | ⟨exc, h⟩ := normalize_str lib cfg raw <;>
        simp [fromNumber, StringOrFalsy, expectedFrom, htruthy, h, Lib.str, eq_comm]
    | _ => simp [fromNumber, StringOrFalsy, expectedFrom, htruthy, normalize]

/-- Only the sender stands between an event with a text and its draft. -/
theorem begin_text (cfg : Settings) (htext : IsText event)
    (hbody : (extract lib event).body = .str text) (hne : text ≠ "") :
    begin lib cfg (.ok (.obj event)) =
      match fromNumber lib cfg (extract lib event).sender with
      | .error e => .done (.raised e)
      | .ok number =>
        if (extract lib event).providerId = "" then .adding (draftOf lib event number)
        else .dedup (draftOf lib event number) := by
  have htruthy : (extract lib event).body.truthy = true := by simp [hbody, Json.truthy, hne]
  have hmessage : begin lib cfg (.ok (.obj event)) = beginMessage lib cfg event := by
    rcases htext with h | h <;> simp [begin, h]
  rw [hmessage, beginMessage]
  dsimp only
  rw [htruthy, if_neg (by decide)]
  cases fromNumber lib cfg (extract lib event).sender <;> rfl

/-- What of a text must have no surrogate for its row to be flushed. -/
theorem isSome_newMessage (hbody : (extract lib event).body = .str text) {uuid : String}
    {now : Time} : (newMessage lib (draftOf lib event number) uuid now).isSome ↔
      text.encode.isSome ∧ (∀ n ∈ number, n.encode.isSome) ∧
        (extract lib event).providerId.encode.isSome := by
  simp only [newMessage, draftOf, hbody, Lib.bindText]
  cases text with
  | lone text => simp
  | text text =>
    cases number with
    | none => cases (extract lib event).providerId <;> simp [bindOptional]
    | some number =>
      cases number with
      | lone number => simp [bindOptional]
      | text number => cases (extract lib event).providerId <;> simp [bindOptional]

/-- A bound number is the number. -/
theorem bindOptional_eq_some {bound : Option String} :
    bindOptional number = some bound ↔ bound.map PyStr.text = number := by
  cases number with
  | none => cases bound <;> simp [bindOptional]
  | some number => cases number <;> cases bound <;> simp [bindOptional, eq_comm]

/-- **The row of a text.** -/
theorem newMessage_text (hbody : (extract lib event).body = .str text) {uuid : String}
    {now : Time} {m : Message}
    (h : newMessage lib (draftOf lib event number) uuid now = some m) :
    PyStr.text m.body = text ∧ m.fromNumber.map PyStr.text = number ∧
      m.createdAt = (parseTimestamp lib now (extract lib event).receivedAt).fields := by
  simp only [newMessage, draftOf, hbody, Lib.bindText] at h
  split at h
  · next body fromNumber providerId htext hnumber hid =>
    obtain rfl := Option.some.inj h
    obtain ⟨body', hencode, hsome⟩ := Option.map_eq_some_iff.mp htext
    obtain rfl := Option.some.inj hsome
    exact ⟨(PyStr.encode_eq_some.mp hencode).symm, bindOptional_eq_some.mp hnumber, rfl⟩
  · cases h

end

/-! ## The deliveries of a message -/

section
variable {messageId : String} {subs : List Subscriber} {uuids : List String} {now : Time}

/-- A row is made for each subscriber when its name and its url can be bound. -/
theorem isSome_enqueueFanout (hlen : uuids.length = subs.length) :
    (enqueueFanout messageId subs uuids now).isSome ↔ ∀ sub ∈ subs, sub.Bindable := by
  have hrow : ∀ p : String × Subscriber, (do
      let name ← p.2.name.encode
      let url ← p.2.url.encode
      return newDelivery messageId p.1 name url now).isSome ↔ p.2.Bindable := by
    rintro ⟨id, sub⟩
    simp only [Subscriber.Bindable, bind, pure]
    cases sub.name.encode <;> cases sub.url.encode <;> simp
  simp only [enqueueFanout, Option.isSome_mapM, hrow]
  -- each subscriber stands beside one of the ids
  constructor
  · intro h sub hsub
    rw [← List.map_snd_zip (Nat.le_of_eq hlen.symm), List.mem_map] at hsub
    obtain ⟨p, hp, rfl⟩ := hsub
    exact h p hp
  · intro h p hp
    exact h p.2 (List.of_mem_zip hp).2

variable {ds : List WebhookDelivery}

/-- What a row is made of. -/
private theorem row_eq {p : String × Subscriber} {d : WebhookDelivery}
    (h : (do
      let name ← p.2.name.encode
      let url ← p.2.url.encode
      return newDelivery messageId p.1 name url now) = some d) :
    p.1 = d.id ∧ p.2.name = .text d.subscriber := by
  simp only [bind, pure, Option.bind_eq_some_iff, Option.some.injEq] at h
  obtain ⟨name, hname, url, -, rfl⟩ := h
  exact ⟨rfl, PyStr.encode_eq_some.mp hname⟩

/-- Each subscriber gets one of the ids. -/
theorem map_id_enqueueFanout (hlen : uuids.length = subs.length)
    (h : enqueueFanout messageId subs uuids now = some ds) :
    ds.map WebhookDelivery.id = uuids := by
  rw [← Option.map_eq_of_mapM h fun p d hd => (row_eq hd).1,
    List.map_fst_zip (Nat.le_of_eq hlen)]

/-- The deliveries are for the subscribers, in order. -/
theorem map_subscriber_enqueueFanout (hlen : uuids.length = subs.length)
    (h : enqueueFanout messageId subs uuids now = some ds) :
    ds.map (fun d => PyStr.text d.subscriber) = subs.map Subscriber.name := by
  have hsubs := List.map_snd_zip (Nat.le_of_eq hlen.symm)
  rw [← Option.map_eq_of_mapM h fun p d hd => (row_eq hd).2, ← hsubs, List.map_map, hsubs]
  rfl

theorem messageId_enqueueFanout (h : enqueueFanout messageId subs uuids now = some ds)
    {d : WebhookDelivery} (hd : d ∈ ds) : d.messageId = messageId ∧ d.status = .pending := by
  obtain ⟨_, -, _, -, _, _, -, -, rfl⟩ := mem_enqueueFanout h hd
  exact ⟨rfl, rfl⟩

/-- No two rows are for one name when no two subscribers have one. -/
theorem nodup_subscriber_iff (hlen : uuids.length = subs.length)
    (h : enqueueFanout messageId subs uuids now = some ds) :
    (ds.map WebhookDelivery.subscriber).Nodup ↔ (subs.map Subscriber.name).Nodup := by
  have htext : Function.Injective PyStr.text := fun _ _ heq => PyStr.text.inj heq
  rw [← map_subscriber_enqueueFanout hlen h, ← List.nodup_map_iff htext, List.map_map]
  rfl

/-- No delivery is stored for a message that is not. -/
theorem existingDeliveries_eq_nil {db : Store} (h : ∀ m ∈ db.messages, m.id ≠ messageId) :
    existingDeliveries db messageId = [] := by
  simp only [existingDeliveries, List.map_eq_nil_iff, List.filter_eq_nil_iff, decide_eq_true_eq]
  intro d hd hid
  obtain ⟨m, hm, hmid⟩ := List.mem_map.mp (db.integrity.fkMessage d hd)
  exact h m hm (hmid.trans hid)

/-- **The transaction of a message.**  Under new ids, a message without a key and its
    deliveries can be committed exactly when no two of the subscribers share a name. -/
theorem insertInbound_iff {db : Store} {m : Message} (hkey : m.idempotencyKey = none)
    (hm : ∀ r ∈ db.messages, r.id ≠ m.id) (hd : ∀ d ∈ db.deliveries, d.id ∉ uuids)
    (hnd : uuids.Nodup) (hlen : uuids.length = subs.length)
    (hds : enqueueFanout m.id subs uuids now = some ds) :
    (db.insertInbound m ds).isSome ↔ (subs.map Subscriber.name).Nodup := by
  -- The only constraint in doubt is the one on message and subscriber
  have hpairs : ds.map (fun d => (d.messageId, d.subscriber)) =
      (ds.map WebhookDelivery.subscriber).map fun name => (m.id, name) := by
    rw [List.map_map]
    refine List.map_congr_left fun d hd => ?_
    simp [(messageId_enqueueFanout hds hd).1]
  have hinj : Function.Injective fun name : String => (m.id, name) := fun _ _ h =>
    (Prod.mk.inj h).2
  rw [Store.isSome_insertInbound, ← nodup_subscriber_iff hlen hds]
  constructor
  · intro h
    have huq := h.uqMessageSubscriber
    rw [List.map_append, hpairs, List.nodup_append] at huq
    exact (List.nodup_map_iff hinj).mp huq.2.1
  · intro hnames
    have hold := db.integrity
    constructor
    · rw [List.map_append, List.nodup_append]
      refine ⟨hold.pkMessages, by simp, fun id hid id' hid' heq => ?_⟩
      obtain ⟨r, hr, rfl⟩ := List.mem_map.mp hid
      exact hm r hr (by simpa [heq] using hid')
    · simpa [List.filterMap_append, Message.idemKey, hkey] using hold.uqServiceIdem
    · rw [List.map_append, map_id_enqueueFanout hlen hds, List.nodup_append]
      refine ⟨hold.pkDeliveries, hnd, fun id hid id' hid' heq => ?_⟩
      obtain ⟨d, hdb, rfl⟩ := List.mem_map.mp hid
      exact hd d hdb (heq ▸ hid')
    · rw [List.map_append, hpairs, List.nodup_append]
      refine ⟨hold.uqMessageSubscriber, (List.nodup_map_iff hinj).mpr hnames, ?_⟩
      -- the deliveries that are there belong to messages that are there
      intro p hp p' hp' heq
      obtain ⟨d, hdb, rfl⟩ := List.mem_map.mp hp
      obtain ⟨name, -, rfl⟩ := List.mem_map.mp hp'
      obtain ⟨r, hr, hrid⟩ := List.mem_map.mp (hold.fkMessage d hdb)
      exact hm r hr (hrid.trans (Prod.mk.inj heq).1)
    · intro d hdb
      rw [List.map_append, List.mem_append]
      rcases List.mem_append.mp hdb with hdb | hdb
      · exact .inl (hold.fkMessage d hdb)
      · exact .inr (by simp [(messageId_enqueueFanout hds hdb).1])

end

/-! ## The whole call -/

/-- What a call takes from outside: the ids it draws and what its clock shows. -/
structure Draws where
  uuid : String
  uuids : List String
  flushed : Time
  enqueued : Time
  committed : Time

/-- The event is the object that the body holds: `json.loads` returns it, or raises. -/
def Holds (parsed : Except LoadsError (Json PyStr)) (event : List (PyStr × Json PyStr)) : Prop :=
  ∀ x, parsed = .ok x → x = .obj event

/-- What a call does with a text message when it is not interrupted. -/
def acts (lib : Lib) (event : List (PyStr × Json PyStr))
    (parsed : Except LoadsError (Json PyStr)) (draws : Draws) : List Act :=
  .begin parsed ::
    ((if (extract lib event).providerId = "" then [] else [.select]) ++
      [.flush draws.uuid draws.flushed, .enqueue draws.uuids draws.enqueued,
        .commit draws.committed])

/-- No inbound message is stored under the id of the event. -/
def NewId (lib : Lib) (db : Store) (event : List (PyStr × Json PyStr)) : Prop :=
  ∀ id, (extract lib event).providerId = .text id → id ≠ "" → alreadyStored db id = []

/-- As many ids as the call needs. -/
def Draws.Enough (draws : Draws) (env : Env) : Prop :=
  ∀ subs, env.subscribers = .ok subs → draws.uuids.length = (interested subs).length

section
variable {lib : Lib} {cfg : Settings} {env : Env} {db : Store} {event : List (PyStr × Json PyStr)}
  {text : PyStr} {draws : Draws} {number : Option PyStr}

/-- A call whose first step gives an answer does not come to its commit. -/
private theorem exec_answered {parsed : Except LoadsError (Json PyStr)} {answer : Answer}
    (hbegin : begin lib cfg parsed = .done answer) :
    exec (move lib cfg env) (db, .idle) (acts lib event parsed draws) = none := by
  by_cases hid : (extract lib event).providerId = "" <;>
    simp [acts, exec, move, step, hbegin, hid]

/-- A call whose body `json.loads` refuses has its answer at once. -/
theorem begin_error (lib : Lib) (cfg : Settings) (e : LoadsError) :
    ∃ answer, begin lib cfg (.error e) = .done answer := by
  cases e <;> exact ⟨_, rfl⟩

/-- The handler past the sender and the lookup has its draft in hand. -/
private theorem exec_lookup (htext : IsText event)
    (hbody : (extract lib event).body = .str text) (hne : text ≠ "")
    (hnew : NewId lib db event) {id : String} (hid : (extract lib event).providerId = .text id)
    (hnumber : fromNumber lib cfg (extract lib event).sender = .ok number) :
    exec (move lib cfg env) (db, .idle) (acts lib event (.ok (.obj event)) draws) =
      exec (move lib cfg env) (db, .adding (draftOf lib event number))
        [.flush draws.uuid draws.flushed, .enqueue draws.uuids draws.enqueued,
          .commit draws.committed] := by
  have hbegin := begin_text cfg htext hbody hne
  rw [hnumber] at hbegin
  by_cases hempty : (extract lib event).providerId = ""
  · simp [acts, exec, move, step, hbegin, hempty]
  · have hnone := hnew id hid fun h => hempty (hid.trans (congrArg PyStr.text h))
    have hdedup : afterDedup db (draftOf lib event number) =
        .adding (draftOf lib event number) := by
      simp [afterDedup, draftOf, hid, hnone, scalarOneOrNone]
    simp [acts, exec, move, step, hbegin, hempty, hdedup]

/-- The lookup of an id with a surrogate ends the call. -/
private theorem exec_loneId (htext : IsText event)
    (hbody : (extract lib event).body = .str text) (hne : text ≠ "") {id : LoneStr}
    (hid : (extract lib event).providerId = .lone id)
    (hnumber : fromNumber lib cfg (extract lib event).sender = .ok number) :
    exec (move lib cfg env) (db, .idle) (acts lib event (.ok (.obj event)) draws) = none := by
  have hbegin := begin_text cfg htext hbody hne
  rw [hnumber, hid] at hbegin
  have hdedup : afterDedup db (draftOf lib event number) =
      .done (.raised .unicodeEncodeError) := by
    simp [afterDedup, draftOf, hid]
  simp [acts, exec, move, step, hbegin, hid, hdedup]

/-- The handler from its flush to its commit. -/
private theorem exec_store (cfg : Settings) {db' : Store} {id : String} {n : Nat}
    (hfree : ∀ r ∈ db.messages, r.id ≠ draws.uuid) (henough : draws.Enough env) :
    exec (move lib cfg env) (db, .adding (draftOf lib event number))
        [.flush draws.uuid draws.flushed, .enqueue draws.uuids draws.enqueued,
          .commit draws.committed] = some (db', .done (.accepted id n)) ↔
      ∃ m subs ds, newMessage lib (draftOf lib event number) draws.uuid draws.flushed = some m ∧
        env.subscribers = .ok subs ∧
        enqueueFanout m.id (interested subs) draws.uuids draws.enqueued = some ds ∧
        db.insertInbound m ds = some db' ∧ id = m.id ∧ n = ds.length := by
  cases hm : newMessage lib (draftOf lib event number) draws.uuid draws.flushed with
  | none => simp [exec, move, step, hm]
  | some m =>
    obtain ⟨hmid, -⟩ := newMessage_inbound hm
    cases hsubs : env.subscribers with
    | error e => simp [exec, move, step, hm, enqueue, hsubs]
    | ok subs =>
      -- nothing is stored for the message yet, so no subscriber is skipped
      have hall : toEnqueue subs (existingDeliveries db m.id) = interested subs := by
        simp [toEnqueue, existingDeliveries_eq_nil (hmid ▸ hfree)]
      cases hds : enqueueFanout m.id (interested subs) draws.uuids draws.enqueued with
      | none => simp [exec, move, step, hm, enqueue, hsubs, hall, henough subs hsubs, hds]
      | some ds =>
        have hexec : exec (move lib cfg env) (db, .adding (draftOf lib event number))
            [.flush draws.uuid draws.flushed, .enqueue draws.uuids draws.enqueued,
              .commit draws.committed] =
            (db.insertInbound m ds).map fun db' => (db', .done (.accepted m.id ds.length)) := by
          simp [exec, move, step, hm, enqueue, hsubs, hall, henough subs hsubs, hds]
        rw [hexec, Option.map_eq_some_iff]
        constructor
        · rintro ⟨db'', hinsert, heq⟩
          obtain ⟨rfl, hdone⟩ := Prod.mk.inj heq
          obtain ⟨rfl, rfl⟩ := Answer.accepted.inj (Pc.done.inj hdone)
          exact ⟨m, subs, ds, rfl, rfl, hds, hinsert, rfl, rfl⟩
        · rintro ⟨m', subs', ds', hm', hsubs', hds', hinsert, rfl, rfl⟩
          obtain rfl := Option.some.inj hm'
          obtain rfl := Except.ok.inj hsubs'
          obtain rfl := Option.some.inj (hds.symm.trans hds')
          exact ⟨db', hinsert, rfl⟩

end

end Inbound

open Inbound

/-- The call, made in the state `s`, answers 202 and commits the message and the
    deliveries in one transaction. -/
def Completes (lib : Lib) (cfg : Settings) (s : Sys) (call : Nat)
    (event : List (PyStr × Json PyStr)) (parsed : Except LoadsError (Json PyStr)) (draws : Draws)
    (m : Message) (ds : List WebhookDelivery) : Prop :=
  ∃ t, Run lib cfg s ((acts lib event parsed draws).map (Action.inbound call)) t ∧
    t.inbounds call = .done (.accepted m.id ds.length) ∧
    t.db.messages = s.db.messages ++ [m] ∧ t.db.deliveries = s.db.deliveries ++ ds

section
variable {lib : Lib} {cfg : Settings} {env : Env} {s : Sys} {tr : List Action} {call : Nat}
  {event : List (PyStr × Json PyStr)} {parsed : Except LoadsError (Json PyStr)} {text : PyStr}
  {draws : Draws}

/-- **What a call needs to store its message:** a body that `json.loads` can read, a sender
    that raises nothing, a readable subscriber list with no two subscribers to a name, and
    nothing to store that has a surrogate. -/
theorem completes_iff (hrun : Run lib cfg (Sys.init env) tr s) (hidle : s.inbounds call = .idle)
    (hparsed : Holds parsed event) (htext : IsText event)
    (hbody : (extract lib event).body = .str text) (hne : text ≠ "")
    (hnew : NewId lib s.db event) (hfresh : DrawsFresh s (draws.uuid :: draws.uuids))
    (henough : draws.Enough s.env) {m : Message} {ds : List WebhookDelivery} :
    Completes lib cfg s call event parsed draws m ds ↔
      parsed = .ok (.obj event) ∧ ∃ number subs,
        fromNumber lib cfg (extract lib event).sender = .ok number ∧
        newMessage lib (draftOf lib event number) draws.uuid draws.flushed = some m ∧
        s.env.subscribers = .ok subs ∧
        enqueueFanout m.id (interested subs) draws.uuids draws.enqueued = some ds ∧
        ((interested subs).map Subscriber.name).Nodup := by
  have hi := inv_reachable hrun
  have hfan := fanInv_reachable hrun
  -- the ids are on no stored row
  have hfree : ∀ r ∈ s.db.messages, r.id ≠ draws.uuid := fun r hr hid =>
    hfresh.2 draws.uuid List.mem_cons_self (hid ▸ (hi.row r hr).2.1)
  have hfree' : ∀ d ∈ s.db.deliveries, d.id ∉ draws.uuids := fun d hd hid =>
    hfresh.2 d.id (List.mem_cons_of_mem _ hid) (hfan.row d hd).1.1
  have hnd : draws.uuids.Nodup := (List.nodup_cons.mp hfresh.1).2
  have hdraws : DrawsFresh s
      ((acts lib event parsed draws).flatMap fun a => (Action.inbound call a).uuids) := by
    by_cases hid : (extract lib event).providerId = "" <;>
      simpa [acts, hid, Action.uuids] using hfresh
  constructor
  · rintro ⟨t, hrun', hdone, hms, hds⟩
    have hexec := (run_inbound_iff hdraws).mp ⟨t, hrun', rfl, hdone⟩
    rw [hidle] at hexec
    cases parsed with
    | error e =>
      obtain ⟨answer, hbegin⟩ := begin_error lib cfg e
      rw [exec_answered hbegin] at hexec
      cases hexec
    | ok x =>
      obtain rfl := hparsed x rfl
      cases hnumber : fromNumber lib cfg (extract lib event).sender with
      | error e =>
        have hbegin := begin_text cfg htext hbody hne
        rw [hnumber] at hbegin
        rw [exec_answered hbegin] at hexec
        cases hexec
      | ok number =>
        cases hid : (extract lib event).providerId with
        | lone id =>
          rw [exec_loneId htext hbody hne hid hnumber] at hexec
          cases hexec
        | text id =>
          -- the call went through its flush and its commit
          rw [exec_lookup htext hbody hne hnew hid hnumber, exec_store cfg hfree henough] at hexec
          obtain ⟨m', subs, ds', hm', hsubs, hfanout, hinsert, -⟩ := hexec
          obtain ⟨hms', hds'⟩ := Store.insertInbound_eq_some.mp hinsert
          obtain rfl : m = m' := by simpa using hms.symm.trans hms'
          obtain rfl := List.append_cancel_left (hds.symm.trans hds')
          obtain ⟨hmid, -, -, -, -, -, hkey, -⟩ := newMessage_inbound hm'
          have hnames := (insertInbound_iff hkey (hmid ▸ hfree) hfree' hnd (henough subs hsubs)
            hfanout).mp (by rw [hinsert]; rfl)
          exact ⟨rfl, number, subs, rfl, hm', hsubs, hfanout, hnames⟩
  · rintro ⟨rfl, number, subs, hnumber, hm, hsubs, hfanout, hnames⟩
    obtain ⟨hmid, -, -, -, -, -, hkey, id, hid, -⟩ := newMessage_inbound hm
    have hsome : (s.db.insertInbound m ds).isSome :=
      (insertInbound_iff hkey (hmid ▸ hfree) hfree' hnd (henough subs hsubs) hfanout).mpr hnames
    obtain ⟨db', hinsert⟩ := Option.isSome_iff_exists.mp hsome
    obtain ⟨hms, hds⟩ := Store.insertInbound_eq_some.mp hinsert
    have hexec := (exec_store cfg hfree henough).mpr
      ⟨m, subs, ds, hm, hsubs, hfanout, hinsert, rfl, rfl⟩
    rw [← exec_lookup htext hbody hne hnew hid hnumber, ← hidle] at hexec
    obtain ⟨t, hrun', rfl, hdone⟩ := (run_inbound_iff hdraws).mpr hexec
    exact ⟨t, hrun', hdone, hms, hds⟩

/-- **Which texts are stored.** -/
theorem exists_completes_iff (hrun : Run lib cfg (Sys.init env) tr s)
    (hidle : s.inbounds call = .idle) (hparsed : Holds parsed event) (htext : IsText event)
    (hbody : (extract lib event).body = .str text) (hne : text ≠ "")
    (hnew : NewId lib s.db event) (hfresh : DrawsFresh s (draws.uuid :: draws.uuids))
    (henough : draws.Enough s.env) :
    (∃ m ds, Completes lib cfg s call event parsed draws m ds) ↔
      parsed = .ok (.obj event) ∧ StringOrFalsy (extract lib event).sender ∧
        Bindable lib cfg event text ∧ s.env.Fannable := by
  have hcompletes : ∀ m ds, Completes lib cfg s call event parsed draws m ds ↔ _ := fun _ _ =>
    completes_iff hrun hidle hparsed htext hbody hne hnew hfresh henough
  constructor
  · rintro ⟨m, ds, hdone⟩
    obtain ⟨hread, number, subs, hnumber, hm, hsubs, hds, hnames⟩ := (hcompletes m ds).mp hdone
    obtain ⟨hsender, rfl⟩ := fromNumber_eq_ok.mp hnumber
    -- what was flushed could be bound
    have hflushed := (isSome_newMessage hbody).mp (Option.isSome_of_eq_some hm)
    exact ⟨hread, hsender, ⟨hflushed.1, hflushed.2.1, hflushed.2.2⟩, subs, hsubs, hnames,
      (isSome_enqueueFanout (henough subs hsubs)).mp (Option.isSome_of_eq_some hds)⟩
  · rintro ⟨hread, hsender, hbind, subs, hsubs, hnames, hrows⟩
    obtain ⟨m, hm⟩ := Option.isSome_iff_exists.mp
      ((isSome_newMessage hbody).mpr ⟨hbind.text, hbind.sender, hbind.providerId⟩)
    obtain ⟨ds, hds⟩ := Option.isSome_iff_exists.mp
      ((isSome_enqueueFanout (henough subs hsubs)).mpr hrows)
    exact ⟨m, ds, (hcompletes m ds).mpr ⟨hread, _, subs, fromNumber_eq_ok.mpr ⟨hsender, rfl⟩, hm,
      hsubs, hds, hnames⟩⟩

/-- The row a call has stored. -/
theorem Completes.row (hrun : Run lib cfg (Sys.init env) tr s)
    (hidle : s.inbounds call = .idle) (hparsed : Holds parsed event) (htext : IsText event)
    (hbody : (extract lib event).body = .str text) (hne : text ≠ "")
    (hnew : NewId lib s.db event) (hfresh : DrawsFresh s (draws.uuid :: draws.uuids))
    (henough : draws.Enough s.env) {m : Message} {ds : List WebhookDelivery}
    (h : Completes lib cfg s call event parsed draws m ds) :
    m.id = draws.uuid ∧ m.direction = .inbound ∧ PyStr.text m.body = text ∧
      m.fromNumber.map PyStr.text = expectedFrom lib cfg (extract lib event).sender ∧
      m.createdAt = (parseTimestamp lib draws.flushed (extract lib event).receivedAt).fields := by
  obtain ⟨-, number, -, hnumber, hm, -⟩ :=
    (completes_iff hrun hidle hparsed htext hbody hne hnew hfresh henough).mp h
  obtain ⟨hid, hdir, -⟩ := newMessage_inbound hm
  obtain ⟨htext', hnumber', htime⟩ := newMessage_text hbody hm
  exact ⟨hid, hdir, htext', hnumber'.trans (fromNumber_eq_ok.mp hnumber).2, htime⟩

end

namespace Sample

/-- A text message from a given sender. -/
def textFrom (sender : Json PyStr) : List (PyStr × Json PyStr) :=
  [("event", .str "sms:received"), ("id", .str "e1"),
    ("payload", .obj [("phoneNumber", sender), ("message", .str "hi")])]

/-- The ids for a message and its deliveries. -/
def draws (deliveries : List String) : Draws := ⟨"m1", deliveries, 1, 1, 1⟩

/-- An entry of `SMS_RELAY_SUBSCRIBERS`. -/
def entry (name url : PyStr) : Json PyStr := .obj [("name", .str name), ("url", .str url)]

/-- The environment with these subscribers. -/
def subscribers (entries : List (Json PyStr)) : Env := Env.read lib (.obj []) (.arr entries)

end Sample

end SmsRelay
