import Mathlib.Algebra.Order.Ring.Nat
import Mathlib.Data.List.Sort
import Mathlib.Data.Prod.Lex
import Mathlib.Data.String.Basic
import SmsRelay.Native.Routes.Inbound
import SmsRelay.Native.Routes.Messages

/-!
# The Grafana webhook

`sms_relay/routes/grafana.py`: one message for a group of alerts.  `grafana` gives the
request it hands to `send_message`, under the service it was called for, and the number
of alerts it accepts, or the exception it ends in.
-/

namespace SmsRelay

namespace Grafana

/-! ## `json.dumps` -/

/-- `'\\u{0:04x}'.format(n)` -/
def unicodeEscape (n : Nat) : List Char :=
  ['\\', 'u', (n / 4096 % 16).digitChar, (n / 256 % 16).digitChar, (n / 16 % 16).digitChar,
    (n % 16).digitChar]

/-- The characters with an escape of their own. -/
def shortEscape : Char → Option Char
  | '\\' => some '\\'
  | '"' => some '"'
  | '\n' => some 'n'
  | '\r' => some 'r'
  | '\t' => some 't'
  | '\x0c' => some 'f'
  | '\x08' => some 'b'
  | _ => none

/-- A character in a JSON string: everything but printable ASCII is escaped, beyond the
    basic plane as a pair of surrogates. -/
def escapeAscii (c : Char) : List Char :=
  match shortEscape c with
  | some k => ['\\', k]
  | none =>
    if ' ' ≤ c ∧ c ≤ '~' then [c]
    else if c.toNat < 0x10000 then unicodeEscape c.toNat
    else unicodeEscape (0xd800 + (c.toNat - 0x10000) / 1024) ++
      unicodeEscape (0xdc00 + (c.toNat - 0x10000) % 1024)

/-- `json.dumps` of a `str`. -/
def dumpsStr (s : String) : List Char := '"' :: s.toList.flatMap escapeAscii ++ ['"']

/-- `json.dumps` of a `list`, given its items. -/
def dumpsList (items : List (List Char)) : List Char :=
  '[' :: List.intercalate [',', ' '] items ++ [']']

/-! ## Alerts -/

inductive AlertState where
  | firing
  | resolved
  deriving DecidableEq, Repr

def AlertState.value : AlertState → String
  | .firing => "firing"
  | .resolved => "resolved"

/-- `if state not in ("firing", "resolved")` -/
def alertState : Json → Except PyError AlertState
  | .str "firing" => .ok .firing
  | .str "resolved" => .ok .resolved
  | _ => .error (.valueError "")

/-- `[fingerprint, starts, state, reminder]` -/
structure Identity where
  fingerprint : String
  startsAt : String
  state : AlertState
  reminder : Nat
  deriving DecidableEq, Repr

/-- A member of `entries`. -/
structure Entry where
  identity : Identity
  text : String
  priority : Int
  deriving DecidableEq, Repr

/-- `dt.timestamp()` of an aware `datetime`, in microseconds. -/
def timestamp (fields offset : Time) : Time := fields - offset

/-- `max(0, int((now - started) // 14400)) if state == "firing" else 0`, with exact times: the
    code subtracts and divides binary64 numbers, which may round a reading next to the border
    of two windows across it. -/
def reminder (state : AlertState) (now started : Time) : Nat :=
  match state with
  | .firing => ((now - started) / seconds 14400).toNat
  | .resolved => 0

/-- `", ".join(f"{label}={labels[label]}" for label in names if labels.get(label))` -/
def affectedBy (lib : Lib) (labels : List (String × Json)) (names : List String) : String :=
  String.intercalate ", " <|
    (names.filter fun label => (Json.get labels label).truthy).map fun label =>
      label ++ "=" ++ lib.str (Json.get labels label)

/-- What the alert affects: an application when the labels name one, else a target. -/
def affected (lib : Lib) (labels : List (String × Json)) : String :=
  let named := affectedBy lib labels
    ["app", "checks", "node", "namespace", "persistentvolumeclaim", "job_name", "cronjob",
      "service"]
  if named = "" then affectedBy lib labels ["instance", "pod"] else named

/-- The text of an alert, before it is cut off. -/
def alertText (lib : Lib) (labels : List (String × Json)) (state : AlertState)
    (name summary : String) : String :=
  let description :=
    match state with
    | .firing => summary
    | .resolved => "Alert condition cleared."
  let text := "[" ++ state.value.map Char.toUpper ++ "] " ++ name ++ ": " ++ description
  if affected lib labels = "" then text else text ++ "\n" ++ affected lib labels

/-- Warning recoveries have 1, firing warnings 3, critical alerts 4 and their recoveries 3. -/
def alertPriority (labels : List (String × Json)) (state : AlertState) : Int :=
  match Json.get labels "severity", state with
  | .str "critical", .firing => 4
  | .str "critical", .resolved => 3
  | _, .firing => 3
  | _, .resolved => 1

/-- The body of the loop over the alerts; `now` is what `time.time()` gives there. -/
def entryOf (lib : Lib) (now : Time) (alert : Json) : Except PyError Entry :=
  match alert with
  | .obj items =>
    match Json.get items "labels", (Json.lookup items "annotations").getD (.obj []) with
    | .obj labels, .obj annotations => do
      let status ← subscript alert "status"
      let state ← alertState status
      let name ← subscript (.obj labels) "alertname"
      let summary := (Json.lookup annotations "summary").getD name
      let fingerprint ← subscript alert "fingerprint"
      let starts ← subscript alert "startsAt"
      match name, summary, fingerprint, starts with
      | .str name, .str summary, .str fingerprint, .str starts =>
        if name = "" ∨ summary = "" ∨ fingerprint = "" ∨ starts = "" then
          .error (.valueError "")
        else
          match lib.fromisoformat (Inbound.replaceZ starts) with
          | some ⟨fields, some offset⟩ =>
            let reminder := reminder state now (timestamp fields offset)
            .ok
              { identity := ⟨fingerprint, starts, state, reminder⟩
                text := sliceTo 1800 (alertText lib labels state name summary)
                priority := alertPriority labels state }
          | _ => .error (.valueError "")
      | _, _, _, _ => .error (.valueError "")
    | _, _ => .error (.valueError "")
  | _ => .error (.valueError "")

/-! ## The group -/

/-- `(-x[2], x[0])`, compared as Python compares tuples and lists. -/
def Entry.sortKey (e : Entry) : Int ×ₗ String ×ₗ String ×ₗ String ×ₗ Nat :=
  toLex (-e.priority, toLex (e.identity.fingerprint, toLex (e.identity.startsAt,
    toLex (e.identity.state.value, e.identity.reminder))))

/-- `entries.sort(key=...)`, which is stable. -/
def sortEntries (entries : List Entry) : List Entry :=
  entries.insertionSort fun x y => x.sortKey ≤ y.sortKey

/-- `json.dumps` of an identity. -/
def Identity.dumps (i : Identity) : List Char :=
  dumpsList [dumpsStr i.fingerprint, dumpsStr i.startsAt, dumpsStr i.state.value,
    (toString i.reminder).toList]

/-- `json.dumps([x[0] for x in entries])` -/
def dumpsIdentities (entries : List Entry) : String :=
  String.ofList (dumpsList (entries.map fun e => e.identity.dumps))

/-- `"grafana-group-" + key`; `sha256` gives the `hexdigest` of a text. -/
def groupKey (sha256 : String → String) (entries : List Entry) : String :=
  "grafana-group-" ++ sha256 (dumpsIdentities entries)

/-- The texts that fit, after the ones in `lines`. -/
def fitting : List String → List String → List String
  | lines, [] => lines
  | lines, text :: rest =>
    if 3800 < (lines.map fun s => s.length + 2).sum + text.length then lines
    else fitting (lines ++ [text]) rest

/-- The text of the message. -/
def groupText (entries : List Entry) : String :=
  let lines := fitting [] (entries.map Entry.text)
  let text := String.intercalate "\n\n" lines
  if lines.length < entries.length then
    text ++ "\n\n" ++ toString (entries.length - lines.length) ++ " additional alerts; see Grafana."
  else text

/-- A member of a `to` that is a list. -/
def recipient : Json → Except PyError String
  | .str s => .ok s
  | _ => .error (.valueError "to")

/-- The `to` of a `SendRequest`: a string or a list of strings. -/
def recipients : Json → Except PyError (String ⊕ List String)
  | .str s => .ok (.inl s)
  | .arr items => do
    let items ← items.mapM recipient
    return .inr items
  | _ => .error (.valueError "to")

/-- `SendRequest(...)`, whose `ValidationError` is a `ValueError`. -/
def sendRequest (to_ : String ⊕ List String) (body : String) (priority : Int) (key : String) :
    Except PyError SendRequest :=
  if h : (1 ≤ body.length ∧ body.length ≤ 4000) ∧ key.length ≤ 128 ∧
      1 ≤ priority ∧ priority ≤ 5 then
    .ok
      { recipients := to_
        body := body
        idempotencyKey := some key
        notificationPriority := priority
        body_length := h.1
        key_length := fun _ hk => Option.mem_some_iff.mp hk ▸ h.2.1
        priority_range := h.2.2 }
  else .error (.valueError "SendRequest")

/-- The `try` block: the request for the payload, and the number of its alerts. -/
def messageOf (lib : Lib) (sha256 : String → String) (route : Json) (body : Except PyError Json)
    (clock : Nat → Time) : Except PyError (SendRequest × Nat) := do
  let data ← body
  let alerts ← subscript data "alerts"
  match alerts with
  | .arr alerts =>
    if alerts.length < 1 ∨ 100 < alerts.length then .error (.valueError "")
    else do
      let entries ← alerts.zipIdx.mapM fun p => entryOf lib (clock p.2) p.1
      let entries := sortEntries entries
      let owner ← subscript route "to"
      let to_ ← recipients owner
      let priority := (entries.map Entry.priority).foldl max 0
      let request ← sendRequest to_ (groupText entries) priority (groupKey sha256 entries)
      return (request, entries.length)
  | _ => .error (.valueError "")

/-- `except (KeyError, TypeError, ValueError)` -/
def isInvalid : PyError → Bool
  | .keyError => true
  | .typeError => true
  | .valueError _ => true
  | .invalidPhoneNumber _ => true
  | _ => false

end Grafana

open Grafana in
/-- `grafana`, up to its call of `send_message`.  The body is given by its size and by what
    `json.loads` makes of it; the readings of the clock are numbered by the alerts. -/
def grafana (lib : Lib) (sha256 : String → String) (env : Env) (service : String) (size : Nat)
    (body : Except PyError Json) (clock : Nat → Time) : Except PyError (SendRequest × Nat) :=
  if service ≠ "grafana" then .error (.httpException 403 "Grafana credential required")
  else
    let route := Json.get env.notificationRoutes service
    if !route.truthy then .error (.httpException 503 "Grafana notifications not configured")
    else if 65536 < size then .error (.httpException 413 "payload too large")
    else
      match messageOf lib sha256 route body clock with
      | .ok result => .ok result
      | .error e =>
        if isInvalid e then .error (.httpException 400 "invalid Grafana webhook") else .error e

namespace Grafana

/-- `body.extend(chunk)` for each chunk, until the body is too large. -/
def readBody (body : List UInt8) : List (List UInt8) → Except PyError (List UInt8)
  | [] => .ok body
  | chunk :: chunks =>
    if 65536 < (body ++ chunk).length then .error (.httpException 413 "payload too large")
    else readBody (body ++ chunk) chunks

/-- What the handler returns. -/
structure Accepted where
  accepted : Nat
  notifications : Nat
  deriving DecidableEq, Repr

/-- The end of `grafana`, once `send_message` is over. -/
def respond (alerts : Nat) : SendMessage.Answer → Except PyError Accepted
  | .raised e => .error e
  | .accepted _ => .ok ⟨alerts, 1⟩

end Grafana

open Grafana in
/-- `grafana`, up to its call of `send_message`, with the body as `request.stream()` gives
    it; `loads` is `json.loads`. -/
def grafanaStream (lib : Lib) (sha256 : String → String)
    (loads : List UInt8 → Except PyError Json) (env : Env) (service : String)
    (chunks : List (List UInt8)) (clock : Nat → Time) : Except PyError (SendRequest × Nat) :=
  if service ≠ "grafana" then .error (.httpException 403 "Grafana credential required")
  else
    let route := Json.get env.notificationRoutes service
    if !route.truthy then .error (.httpException 503 "Grafana notifications not configured")
    else
      match readBody [] chunks with
      | .error e => .error e
      | .ok body =>
        match messageOf lib sha256 route (loads body) clock with
        | .ok result => .ok result
        | .error e =>
          if isInvalid e then .error (.httpException 400 "invalid Grafana webhook") else .error e

end SmsRelay
