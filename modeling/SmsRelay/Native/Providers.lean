import SmsRelay.Native.Config
import SmsRelay.Native.Models

/-!
# Providers

`sms_relay/providers`: how an answer of the handset's gateway becomes a result, a
`ProviderError`, or an exception nobody declared.
-/

namespace SmsRelay

/-- An HTTP response, as far as the code looks at it. -/
structure Response where
  statusCode : Nat
  /-- `response.text`, `none` when the codec of the response's charset raises: an
      `AssertionError` for base64, a `UnicodeError` for idna, but never `httpx.HTTPError`. -/
  text : Option PyStr
  /-- `response.json()`. -/
  json : Except LoadsError (Json PyStr)
  deriving Repr

/-- `response.is_success`: everything else makes `raise_for_status` raise. -/
def Response.isSuccess (r : Response) : Bool := 200 ≤ r.statusCode && r.statusCode < 300

/-- The exceptions awaiting a request of an `httpx` client can raise, as far as the
    `except` clauses around the calls tell them apart. -/
inductive RequestError where
  /-- `httpx.HTTPError` or a subclass, with its text. -/
  | httpError (text : PyStr)
  /-- `TimeoutError`, from `asyncio.timeout`. -/
  | timeout
  | valueError (text : String)
  /-- Any other exception, such as `httpx.InvalidURL`. -/
  | other (text : String)
  deriving DecidableEq, Repr

/-- The exception as the code sees it. -/
def RequestError.toPyError : RequestError → PyError
  | .httpError text => .httpError text
  | .timeout => .timeout
  | .valueError text => .valueError text
  | .other text => .other text

/-- What awaiting a request of an `httpx` client gives: a response, or an exception. -/
abbrev HttpReply := Except RequestError Response

/-- `SendResult`.  The gateway's `id` is passed on without a look at its type. -/
structure SendResult where
  providerMessageId : Json PyStr
  deriving Repr

/-- `(x or {}).get(key)`: any truthy value that is not a `dict` has no `get`. -/
def getOfDict (x : Json PyStr) (key : String) : Except PyError (Json PyStr) :=
  match x.or (.obj []) with
  | .obj items => .ok (Json.get items key)
  | _ => .error .attributeError

namespace AndroidGatewayProvider

/-- `payload` of `AndroidGatewayProvider.send`: what is posted to `/message` as JSON. -/
def payload (toNumber body : String) : Json :=
  .obj [("textMessage", .obj [("text", .str body)]), ("phoneNumbers", .arr [.str toNumber])]

/-- `AndroidGatewayProvider.send`, given what the `POST /message` came to. -/
def send (reply : HttpReply) : Except PyError SendResult :=
  match reply with
  | .error (.httpError exc) => .error (.providerError ("gateway unreachable: " ++ exc) false)
  | .error e => .error e.toPyError
  | .ok response =>
    if response.statusCode ≥ 400 then
      let permanent := decide (response.statusCode < 500 ∧ response.statusCode ≠ 429)
      match response.text with
      | none => .error (.other "response.text")
      | some text =>
        .error (.providerError
          ("gateway returned " ++ toString response.statusCode ++ ": " ++ text.sliceTo 200)
          permanent)
    else
      match response.json with
      | .ok body => (getOfDict body "id").map SendResult.mk
      | .error (.other text) => .error (.other text)
      -- `except ValueError`: the message was accepted, under no id
      | .error _ => .ok ⟨.null⟩

/-- `_STATE_MAP.get(state)`; a `list` or a `dict` is not hashable. -/
def stateMap : Json PyStr → Except PyError (Option MessageStatus)
  | .str "Pending" => .ok (some .sent)
  | .str "Processed" => .ok (some .sent)
  | .str "Sent" => .ok (some .sent)
  | .str "Delivered" => .ok (some .delivered)
  | .str "Failed" => .ok (some .failed)
  | .arr _ => .error .typeError
  | .obj _ => .error .typeError
  | _ => .ok none

/-- `AndroidGatewayProvider.fetch_status`, given what the `GET /message/{id}` came to. -/
def fetchStatus (reply : HttpReply) : Except PyError (Option MessageStatus) :=
  match reply with
  | .error (.httpError _) => .ok none
  | .error (.valueError _) => .ok none
  | .error e => .error e.toPyError
  | .ok response =>
    if response.statusCode = 404 then .ok none
    else if !response.isSuccess then .ok none
    else
      match response.json with
      | .ok body => (getOfDict body "state").bind stateMap
      | .error (.other text) => .error (.other text)
      | .error _ => .ok none

end AndroidGatewayProvider

namespace DevProvider

/-- The name of the file of `DevProvider.send`, with `stamp` for the time in it: characters
    that are no `\w` and not one of `+-` are replaced.  `isWord` is what `re` takes for `\w`. -/
def fileName (isWord : Char → Bool) (stamp toNumber : String) : String :=
  let safe := sliceTo 32
    (String.ofList (toNumber.toList.map fun c => if isWord c || c = '+' || c = '-' then c else '_'))
  stamp ++ "_" ++ safe ++ ".txt"

/-- The text of the file. -/
def fileText (toNumber body : String) : String := "To: " ++ toNumber ++ "\n\n" ++ body ++ "\n"

end DevProvider

/-- What the outside world is asked by one call of `provider.send`. -/
inductive ProviderRequest where
  /-- The JSON of a `POST /message`. -/
  | post (payload : Json)
  /-- A file in the output directory of the dev provider. -/
  | file (name text : String)

/-- `provider.send` up to its first await. -/
def providerRequest (isWord : Char → Bool) (stamp : String) (provider : ProviderName)
    (toNumber body : String) : ProviderRequest :=
  match provider with
  | .androidGateway => .post (AndroidGatewayProvider.payload toNumber body)
  | .dev => .file (DevProvider.fileName isWord stamp toNumber) (DevProvider.fileText toNumber body)

/-- `provider.send(message.to_number or "", message.body)` of the send loop. -/
def sendRequest (isWord : Char → Bool) (stamp : String) (provider : ProviderName) (m : Message) :
    ProviderRequest :=
  providerRequest isWord stamp provider (m.toNumber.getD "") m.body

/-- What the outside world answers to one call of the configured provider. -/
inductive ProviderReply where
  /-- The gateway's answer to the HTTP request. -/
  | gateway (reply : HttpReply)
  /-- The dev provider's `uuid4` after it wrote its file, or the text of the `OSError`. -/
  | file (written : Except String String)

/-- `provider.send`; `none` when the reply is not one of the configured provider. -/
def providerSend (provider : ProviderName) (reply : ProviderReply) :
    Option (Except PyError SendResult) :=
  match provider, reply with
  | .androidGateway, .gateway reply => some (AndroidGatewayProvider.send reply)
  | .dev, .file (.ok uuid) => some (.ok ⟨.str ("dev-" ++ uuid)⟩)
  | .dev, .file (.error exc) => some (.error (.other exc))
  | _, _ => none

/-- `provider.fetch_status`; the dev provider inherits the base class's `None`. -/
def providerFetchStatus (provider : ProviderName) (reply : ProviderReply) :
    Option (Except PyError (Option MessageStatus)) :=
  match provider, reply with
  | .androidGateway, .gateway reply => some (AndroidGatewayProvider.fetchStatus reply)
  | .dev, .file _ => some (.ok none)
  | _, _ => none

end SmsRelay
