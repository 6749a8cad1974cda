import SmsRelay.Native.Phone
import SmsRelay.Native.Providers

/-!
# ntfy routing

`sms_relay/notifications.py`: which topic a new message goes to, and what counts as an
acknowledged publication.
-/

namespace SmsRelay

/-- `d[key]`. -/
def subscript (d : Json) (key : String) : Except PyError Json :=
  match d with
  | .obj items =>
    match Json.lookup items key with
    | some x => .ok x
    | none => .error .keyError
  | _ => .error .typeError

/-- `[a-zA-Z0-9_-]` -/
def isTopicChar (c : Char) : Bool :=
  ('a' ≤ c && c ≤ 'z') || ('A' ≤ c && c ≤ 'Z') || ('0' ≤ c && c ≤ '9') || c = '_' || c = '-'

/-- `re.fullmatch(r"[a-zA-Z0-9_-]{1,64}", topic)` -/
def isTopic (topic : String) : Bool :=
  1 ≤ topic.toList.length && topic.toList.length ≤ 64 && topic.toList.all isTopicChar

/-- `if pattern and not re.search(pattern, body)`: whether the pattern rules the body out. -/
def patternRejects (lib : Lib) (pattern : Json) (body : String) : Except PyError Bool :=
  if pattern.truthy then
    match pattern with
    | .str p => (lib.reSearch p body).map fun found => !found
    | _ => .error .typeError
  else .ok false

/-- The end of `topic_for`: the route's topic, checked against the pattern of topics. -/
def checkedTopic (topic : Json) : Except PyError (Option String) :=
  match topic with
  | .str t => if isTopic t then .ok (some t) else .error (.valueError "invalid notification topic")
  | _ => .error .typeError

/-- `topic_for(service, recipient, body)`. -/
def topicFor (lib : Lib) (cfg : Settings) (env : Env) (service recipient body : String) :
    Except PyError (Option String) :=
  let route := (Json.lookup env.notificationRoutes service).getD (.obj [])
  if !route.truthy || cfg.ntfyUrl = "" then .ok none
  else do
    let raw ← subscript route "to"
    let owner ← normalize lib cfg raw
    -- Never publish another user's private messages to the owner's ntfy topic.
    if owner ≠ recipient then return none
    match route with
    | .obj items =>
      if ← patternRejects lib (Json.get items "bodyPattern") body then return none
      checkedTopic ((Json.lookup items "topic").getD (.str ""))
    | _ => .error .attributeError

/-- The JSON body `publish` posts to ntfy. -/
def publication (m : Message) : Json :=
  .obj
    [("topic", match m.notificationTopic with
        | none => .null
        | some topic => .str topic),
      ("message", .str m.body),
      ("title", .str m.service),
      ("tags", .arr [.str "bell"]),
      ("priority", .int m.notificationPriority)]

/-- The object `publish` accepts as a receipt, and its `id`. -/
def receiptId (receipt : Json PyStr) : Except PyError PyStr :=
  match receipt with
  | .obj items =>
    match Json.get items "event", Json.get items "id" with
    | .str "message", .str id => .ok id
    | _, _ => .error (.valueError "ntfy did not acknowledge publication")
  | _ => .error (.valueError "ntfy did not acknowledge publication")

/-- `publish(message)`, given what the `POST` to ntfy came to; the timeout of eight
    seconds around it is one of the exceptions. -/
def publish (reply : HttpReply) : Except PyError PyStr :=
  match reply with
  | .error e => .error e.toPyError
  | .ok response =>
    if !response.isSuccess then .error (.httpError "raise_for_status")
    else
      match response.json with
      | .ok receipt => receiptId receipt
      | .error e => .error e.toPyError

/-- `except (httpx.HTTPError, ValueError, TimeoutError)` in `send_loop`. -/
def PyError.fallsBack : PyError → Bool
  | .httpError _ => true
  | .valueError _ => true
  | .unicodeEncodeError => true
  | .invalidPhoneNumber _ => true
  | .timeout => true
  | _ => false

end SmsRelay
