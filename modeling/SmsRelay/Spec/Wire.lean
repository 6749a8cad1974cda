import SmsRelay.Spec.Authentication
import SmsRelay.Spec.Content
import SmsRelay.Spec.JsonText
import SmsRelay.Spec.Provenance

/-!
# A text on its way to a subscriber

The gateway posts an event, the relay stores it and posts a webhook, and the subscriber
parses its body.  What the subscriber gets is the text of the event, character for
character, whatever characters a stranger has sent, under a signature that the check of
the relay itself accepts.  The number is the one that the relay stores for the sender, and
the time is that of the timestamp without its offset.

## Key results

- `verify_sign`: a signature that was made with the secret is accepted
- `webhook_intact`: every `POST` of every run carries the text of its event
-/

namespace SmsRelay

open Transition Inbound

/-! ## Signatures -/

section
variable {hmac : List UInt8 → List UInt8 → Vector UInt8 32} {secret : PyStr}
  {body : List UInt8} {value : String}

/-- The digits of a signature are no blanks, and no signature starts like a scheme. -/
private theorem digitChar_plain : ∀ n < 16,
    isSpace (Nat.digitChar n) = false ∧ Nat.digitChar n ≠ 's' := by decide

/-- The characters of a signature are hexadecimal digits. -/
private theorem mem_sign (hvalue : sign hmac body secret = .ok value) {c : Char}
    (hc : c ∈ value.toList) : isSpace c = false ∧ c ≠ 's' := by
  cases secret with
  | lone secret => cases hvalue
  | text secret =>
  obtain rfl := Except.ok.inj hvalue
  rw [hexdigest, String.toList_ofList] at hc
  obtain ⟨b, -, hb⟩ := List.mem_flatMap.mp hc
  have hlt : b.toNat < 256 := b.toNat_lt
  simp only [List.mem_cons, List.not_mem_nil, or_false] at hb
  rcases hb with rfl | rfl
  · exact digitChar_plain _ (by omega)
  · exact digitChar_plain _ (by omega)

/-- A text without blanks is not stripped. -/
private theorem strip_eq {s : String} (h : ∀ c ∈ s.toList, isSpace c = false) : strip s = s := by
  have hdrop : ∀ l : List Char, (∀ c ∈ l, isSpace c = false) → l.dropWhile isSpace = l := by
    intro l hl
    cases l with
    | nil => rfl
    | cons c l => simp [hl c (by simp)]
  unfold strip
  rw [hdrop s.toList h, hdrop s.toList.reverse (by simpa using h), List.reverse_reverse,
    String.ofList_toList]

/-- **A signature that was made with the secret is accepted.** -/
theorem verify_sign (hsecret : secret ≠ "") (hvalue : sign hmac body secret = .ok value) :
    verifyInboundSignature hmac secret (some value) none body = .ok body := by
  obtain ⟨hascii, hne⟩ := sign_ascii hvalue
  -- The header is taken as it is: nothing is stripped, no scheme is removed
  have hpresented : presentedSignature (some value) none = value := by
    have hstart : startsWith "sha256=" value = false := by
      unfold startsWith
      cases htext : value.toList with
      | nil => rfl
      | cons c cs =>
        have hmem : c ∈ value.toList := by simp [htext]
        have hc : c ≠ 's' := (mem_sign hvalue hmem).2
        simpa [List.isPrefixOf] using fun h => absurd h.symm hc
    have hstrip : strip value = value := strip_eq fun c hc => (mem_sign hvalue hc).1
    simp [presentedSignature, removeStart, hne, hstrip, hstart]
  unfold verifyInboundSignature
  simp only [if_neg hsecret, hpresented, if_neg hne, hvalue]
  have hequal : compareDigest value value = .ok true :=
    compareDigest_eq_ok.mpr ⟨hascii, hascii, by simp⟩
  show (compareDigest value value >>= _) = _
  rw [hequal]
  rfl

end

/-! ## What is posted -/

/-- The request that the loop is about to post, or has just posted, is built from a
    committed message and from a subscriber that was configured. -/
def RequestBuilt (lib : Lib) (cfg : Settings) (env : Env) (tr : List Action) (s : Sys) : Prop :=
  ∀ p ∈ s.fanout.request, ∃ m sub, m.id = p.1.messageId ∧
    sub.name = PyStr.text p.1.subscriber ∧ Webhooks.request lib sub p.1 m = .ok p.2 ∧
    (Run.Passed (Step lib cfg) (Sys.init env) tr fun u => m ∈ u.db.messages) ∧
    Run.Passed (Step lib cfg) (Sys.init env) tr fun u =>
      ∃ subs, u.env.subscribers = .ok subs ∧ sub ∈ subs

section
variable {lib : Lib} {cfg : Settings} {env : Env} {s t : Sys} {a : Action} {tr : List Action}
  {d : WebhookDelivery} {request : Webhooks.Request}

theorem RequestBuilt.step (hp : RequestBuilt lib cfg env tr s)
    (hrun : Run lib cfg (Sys.init env) tr s)
    (hstep : Step lib cfg s a t) : RequestBuilt lib cfg env (tr ++ [a]) t := by
  obtain ⟨-, h⟩ := trans_of_step hstep
  have hkeep : t.fanout.request = s.fanout.request → RequestBuilt lib cfg env (tr ++ [a]) t :=
    fun hreq p hmem => by
      obtain ⟨m, sub, hm, hsub, hrequest, hrow, hconf⟩ := hp p (by rwa [← hreq])
      exact ⟨m, sub, hm, hsub, hrequest, hrow.extend [a], hconf.extend [a]⟩
  cases h with
  | fanout hfan =>
    generalize hpc : s.fanout = pc at hfan
    cases hfan with
    | @get ses ses' d todo collected now message hget =>
      -- only a lookup prepares a request
      intro p hmem
      obtain ⟨hd, m, subs, sub, hmessage, henv, hfind, hrequest⟩ :=
        (FanoutLoop.handle_holds lib s.env ses' d message todo).2 p hmem
      obtain ⟨hmid, hheld⟩ := (FanoutLoop.getMessage_holds hget).2 m hmessage
      have hname : sub.name = PyStr.text d.subscriber := by simpa using List.find?_some hfind
      refine ⟨m, sub, by rw [hd]; exact hmid, by rw [hd]; exact hname, by rw [hd]; exact hrequest,
        ?_, (Run.passed_last hrun ⟨subs, henv, List.mem_of_find?_eq_some hfind⟩).extend _⟩
      rcases (FanoutLoop.getMessage_holds hget).1 m hheld with hold | hread
      · exact ((held_reachable hrun).message m (by rw [hpc]; exact hold)).extend _
      · exact (Run.passed_last hrun hread).extend _
    | post => exact hkeep (by rw [hpc]; rfl)
    | posted =>
      intro p hmem
      unfold FanoutLoop.afterPost at hmem
      split at hmem <;> cases hmem
    | selectNone | select | stale | commit | dbError => exact fun p hmem => by cases hmem
  | crash => exact fun p hmem => by cases hmem
  | send | status | prune | sendMessage | inbound | configure => exact hkeep rfl

theorem requestBuilt_reachable (hrun : Run lib cfg (Sys.init env) tr t) :
    RequestBuilt lib cfg env tr t :=
  hrun.traceInvariant (P := fun tr s => RequestBuilt lib cfg env tr s) (fun _ h => by cases h)
    fun _ _ _ _ hrun hp hstep => hp.step hrun hstep

/-- The message of a delivery that was committed at some moment of the run is inbound, and
    it came from an event. -/
theorem came_of_delivery {m : Message}
    (hd : Run.Passed (Step lib cfg) (Sys.init env) tr fun u => d ∈ u.db.deliveries)
    (hm : Run.Passed (Step lib cfg) (Sys.init env) tr fun u => m ∈ u.db.messages)
    (hid : m.id = d.messageId) : Came lib cfg tr m := by
  obtain ⟨tr₁, tr₂, u, htr, hu, hdu⟩ := hd
  -- When the delivery was committed its message was there, as an inbound one
  obtain ⟨r, hr, hrid⟩ := List.mem_map.mp (u.db.integrity.fkMessage d hdu)
  have hdir := (parents_reachable hu).stored d hdu r hr hrid
  have hcame : Came lib cfg tr r := by
    rw [htr]
    exact ((provenance_reachable hu).stored r hr hdir).extend tr₂
  -- All versions of the message say the same
  exact hcame.of_content (content_of_passed ⟨tr₁, tr₂, u, htr, hu, hr⟩ hm (hid.trans hrid.symm))

/-- The JSON value a subscriber is to get for a text: who sent it, what it says and when it
    was received. -/
def notification (lib : Lib) (id : String) (number : Option String) (text : String)
    (received : Time) : Json :=
  .obj
    [("event", .str "message.received"),
      ("message", .obj
        [("body", .str text),
          ("from", Webhooks.optStr number),
          ("id", .str id),
          ("received_at", .str (lib.isoformat received)),
          ("to", .null)])]

/-- `request` brings the text of `event` to `sub`: its body parses to the notification, the
    event has exactly this text, and a signature is there exactly when the subscriber has a
    secret, and is accepted under it.  The number is what is stored for the sender, the E.164
    form or its first characters; the time is what is stored for the timestamp, its fields
    without the offset. -/
structure Notifies (lib : Lib) (cfg : Settings)
    (hmac : List UInt8 → List UInt8 → Vector UInt8 32) (event : List (PyStr × Json PyStr))
    (now : Time) (d : WebhookDelivery) (sub : Subscriber) (request : Webhooks.Request) :
    Prop where
  url : request.url = sub.url
  content : ∃ number text,
    number.map PyStr.text = expectedFrom lib cfg (extract lib event).sender ∧
    lib.bindText (extract lib event).body = some (some text) ∧
    Json.read request.content = some (notification lib d.messageId number text
      (parseTimestamp lib now (extract lib event).receivedAt).fields)
  ascii : isAscii request.content = true
  delivery : ("X-SMS-Relay-Delivery", d.id) ∈ request.headers
  unsigned : sub.secret = "" → ∀ value, ("X-Signature", value) ∉ request.headers
  signed : sub.secret ≠ "" → ∃ value, ("X-Signature", value) ∈ request.headers ∧
    verifyInboundSignature hmac sub.secret (some value) none request.content.toUTF8.toList =
      .ok request.content.toUTF8.toList

/-- What `_payload` serializes has no numbers in it. -/
private theorem finite_payload (lib : Lib) (m : Message) : (Webhooks.payload lib m).Finite := by
  have hopt : ∀ s, (Webhooks.optStr s).Finite := fun s => by
    cases s
    · exact .null
    · exact .str _
  refine .obj fun kv hkv => ?_
  simp only [List.mem_cons, List.not_mem_nil, or_false] at hkv
  rcases hkv with rfl | rfl
  · exact .str _
  · refine .obj fun kv hkv => ?_
    simp only [List.mem_cons, List.not_mem_nil, or_false] at hkv
    rcases hkv with rfl | rfl | rfl | rfl | rfl
    · exact .str _
    · exact hopt _
    · exact .str _
    · exact .str _
    · exact hopt _

/-- What is serialized for a row that came from an event. -/
private theorem payload_of_event {event : List (PyStr × Json PyStr)} {number : Option PyStr}
    {m r : Message} {now : Time}
    (hnew : newMessage lib (draftOf lib event number) m.id now = some r)
    (hcontent : m.content = r.content) :
    ∃ number' text, number'.map PyStr.text = number ∧
      lib.bindText (extract lib event).body = some (some text) ∧
      Webhooks.payload lib m = notification lib m.id number' text
        (parseTimestamp lib now (extract lib event).receivedAt).fields := by
  simp only [Message.content, Prod.mk.injEq] at hcontent
  obtain ⟨-, -, hto, hfrom, hbody, -, -, -, -, hcreated⟩ := hcontent
  unfold newMessage at hnew
  split at hnew
  · next text number' _ htext hnumber _ =>
    obtain rfl := Option.some.inj hnew
    refine ⟨number', text, bindOptional_eq_some.mp hnumber, htext, ?_⟩
    rw [Webhooks.payload, notification, hto, hfrom, hbody, hcreated]
    rfl
  · cases hnew

/-- What `request` puts together. -/
private theorem request_eq_ok {sub : Subscriber} {m : Message}
    (h : Webhooks.request lib sub d m = .ok request) :
    request.url = sub.url ∧ request.content = lib.dumps (Webhooks.payload lib m) ∧
      ("X-SMS-Relay-Delivery", d.id) ∈ request.headers ∧
      (sub.secret = "" → ∀ value, ("X-Signature", value) ∉ request.headers) ∧
      ∀ secret, sub.secret = .text secret → secret ≠ "" →
        ("X-Signature", lib.hmacSha256 request.content secret) ∈ request.headers := by
  obtain ⟨name, url, secret, events⟩ := sub
  unfold Webhooks.request Webhooks.signature at h
  dsimp only at h
  by_cases hsecret : secret = ""
  · rw [if_pos hsecret] at h
    obtain rfl := Except.ok.inj h
    refine ⟨rfl, rfl, by simp, fun _ => by simp, fun secret' heq hne => ?_⟩
    exact absurd (PyStr.text.inj (heq.symm.trans hsecret)) hne
  · rw [if_neg hsecret] at h
    cases secret with
    | lone secret => cases h
    | text secret =>
      obtain rfl := Except.ok.inj h
      refine ⟨rfl, rfl, by simp, fun heq => absurd heq hsecret, fun secret' heq _ => ?_⟩
      obtain rfl := PyStr.text.inj heq
      simp

/-- A request with that payload carries the text of the event. -/
private theorem notifies_request {hmac : List UInt8 → List UInt8 → Vector UInt8 32}
    (hdumps : lib.dumps = Json.compact)
    (hsign : ∀ content secret,
      sign hmac content.toUTF8.toList (.text secret) = .ok (lib.hmacSha256 content secret))
    {event : List (PyStr × Json PyStr)} {number : Option String} {text : String} {now : Time}
    {sub : Subscriber} {m : Message} (hrequest : Webhooks.request lib sub d m = .ok request)
    (hnumber : number.map PyStr.text = expectedFrom lib cfg (extract lib event).sender)
    (htext : lib.bindText (extract lib event).body = some (some text))
    (hpayload : Webhooks.payload lib m = notification lib d.messageId number text
      (parseTimestamp lib now (extract lib event).receivedAt).fields) :
    Notifies lib cfg hmac event now d sub request := by
  obtain ⟨hurl, hcontent, hdelivery, hunsigned, hsigned⟩ := request_eq_ok hrequest
  have hfinite := finite_payload lib m
  rw [hdumps] at hcontent
  refine
    { url := hurl
      content := ⟨number, text, hnumber, htext, ?_⟩
      ascii := by rw [hcontent]; exact Json.isAscii_compact hfinite
      delivery := hdelivery
      unsigned := hunsigned
      signed := fun hsecret => ?_ }
  · rw [← hpayload, hcontent]
    exact Json.read_compact hfinite
  · cases hsec : sub.secret with
    | lone secret =>
      -- such a secret gives no request
      rcases request_cases lib sub d m with ⟨-, hraises⟩ | ⟨hencode, -⟩
      · rw [hrequest] at hraises
        cases hraises
      · exact absurd (by rw [hsec]; rfl) hencode
    | text secret =>
      have hne : secret ≠ "" := fun h => hsecret (hsec.trans (congrArg PyStr.text h))
      refine ⟨_, hsigned secret hsec hne, verify_sign (fun h => hne (PyStr.text.inj h)) ?_⟩
      exact hsign request.content secret

/-- **A text reaches its subscribers intact.**  Every request that is posted in a run, at the
    first attempt or a later one, after restarts and reconfigurations, carries the text of
    the event from which its message came. -/
theorem webhook_intact {hmac : List UInt8 → List UInt8 → Vector UInt8 32}
    (hdumps : lib.dumps = Json.compact)
    (hsign : ∀ content secret,
      sign hmac content.toUTF8.toList (.text secret) = .ok (lib.hmacSha256 content secret))
    (hrun : Run lib cfg (Sys.init env) tr t)
    (hposts : Posts lib cfg (Sys.init env) tr d request) :
    ∃ event now sub, Receives tr d.messageId event now ∧
      sub.name = PyStr.text d.subscriber ∧
      (Run.Passed (Step lib cfg) (Sys.init env) tr fun u =>
        ∃ subs, u.env.subscribers = .ok subs ∧ sub ∈ subs) ∧
      Notifies lib cfg hmac event now d sub request := by
  obtain ⟨tr₁, tr₂, u, rfl, hu, hreq⟩ := hposts
  obtain ⟨m, sub, hmid, hname, hrequest, hrow, hconf⟩ := requestBuilt_reachable hu (d, request) hreq
  dsimp only at hmid hname hrequest
  have hbatch : d ∈ u.fanout.batch := by
    cases hpc : u.fanout <;> rw [hpc] at hreq <;> cases hreq <;> simp [FanoutLoop.Pc.batch]
  obtain ⟨event, now, number, r, hreceives, hnumber, hnew, hcontent⟩ :=
    came_of_delivery ((held_reachable hu).batch d hbatch) hrow hmid
  refine ⟨event, now, sub, ?_, hname, hconf.extend _, ?_⟩
  · rw [← hmid]
    exact hreceives.extend _
  · obtain ⟨number', text, hmap, htext, hpayload⟩ := payload_of_event hnew hcontent
    have hexpected := hmap.trans (fromNumber_eq_ok.mp hnumber).2
    exact notifies_request hdumps hsign hrequest hexpected htext (hmid ▸ hpayload)

end

namespace Sample

/-- A text with a letter that is not ASCII, quotes, a line break and an emoji. -/
def hostileText : String := "é \"x\"\n😀"

/-- What is posted for it, as one text. -/
def hostileContent : String := Json.compact
  (notification lib "m1" (some "+12025550101") hostileText 0)

/-- HMAC-SHA256 of that text under the secret of the subscriber. -/
def hostileHmac (key body : List UInt8) : Vector UInt8 32 :=
  if key = "s3cret".toUTF8.toList ∧ body = hostileContent.toUTF8.toList then
    #v[0x9a, 0xaa, 0x6d, 0xd7, 0x47, 0xbb, 0xa5, 0x12, 0x35, 0xd7, 0x31, 0x46, 0xa6, 0x55, 0x69,
      0xbe, 0x0e, 0xda, 0x64, 0x18, 0x90, 0x0f, 0x26, 0xe4, 0xf0, 0xdc, 0x33, 0x2f, 0xb6, 0xae,
      0xde, 0x58]
  else Vector.replicate 32 0

/-- The serializer as it is, and signatures made with that function. -/
def wireLib : Lib :=
  { lib with
    dumps := Json.compact
    hmacSha256 := fun content secret =>
      hexdigest (hostileHmac secret.toUTF8.toList content.toUTF8.toList).toList }

/-- One subscriber, with a secret. -/
def signed : Env := ⟨[], .ok [⟨"app", "http://app", "s3cret", ["message.received"]⟩]⟩

/-- The text comes in and is about to be posted. -/
def hostileRun : List Action :=
  [.inbound 0 (.begin (.ok (.obj
    [("event", .str "sms:received"), ("id", .str "e1"),
      ("payload", .obj
        [("phoneNumber", .str "+12025550101"), ("message", .str hostileText)])]))),
    .inbound 0 .select, .inbound 0 (.flush "m1" 0), .inbound 0 (.enqueue ["d1"] 0),
    .inbound 0 (.commit 0), .fanout (.select 0 ["d1"]), .fanout (.get [] 0)]

end Sample

/-- The text with the emoji is posted, signed, and parses back. -/
theorem webhook_intact_hostile : ∃ t d request event now sub,
    Run Sample.wireLib Sample.cfg (Sys.init Sample.signed)
      (Sample.hostileRun ++ [.fanout (.post d.id)]) t ∧
    Posts Sample.wireLib Sample.cfg (Sys.init Sample.signed)
      (Sample.hostileRun ++ [.fanout (.post d.id)]) d request ∧
    d.id = "d1" ∧ sub.name = PyStr.text "app" ∧
    Receives (Sample.hostileRun ++ [.fanout (.post d.id)]) d.messageId event now ∧
    Notifies Sample.wireLib Sample.cfg Sample.hostileHmac event now d sub request := by
  -- The moment right before the `POST`
  obtain ⟨u, hu, hhand⟩ : ∃ u,
      Run Sample.wireLib Sample.cfg (Sys.init Sample.signed) Sample.hostileRun u ∧
      Sample.inHand u = some ("d1", "app", 0) := run_of_exec_map (by decide +kernel)
  obtain ⟨⟨d, request⟩, hreq, hd⟩ := Option.map_eq_some_iff.mp hhand
  simp only [Prod.mk.injEq] at hd
  obtain ⟨hid, hsub, -⟩ := hd
  obtain ⟨t, hrun, -⟩ : ∃ t,
      Run Sample.wireLib Sample.cfg (Sys.init Sample.signed)
        (Sample.hostileRun ++ [.fanout (.post "d1")]) t ∧
      Sample.inHand t = some ("d1", "app", 0) := run_of_exec_map (by decide +kernel)
  rw [← hid] at hrun
  have hposts : Posts Sample.wireLib Sample.cfg (Sys.init Sample.signed)
      (Sample.hostileRun ++ [.fanout (.post d.id)]) d request := ⟨_, [], u, rfl, hu, hreq⟩
  obtain ⟨event, now, sub, hreceives, hname, -, hnotifies⟩ :=
    webhook_intact rfl (fun _ _ => rfl) hrun hposts
  exact ⟨t, d, request, event, now, sub, hrun, hposts, hid,
    hname.trans (congrArg PyStr.text hsub), hreceives, hnotifies⟩

end SmsRelay
