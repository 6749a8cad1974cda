import Mathlib.Algebra.Group.Int.Defs
import SmsRelay.Native.Python

/-!
# Configuration and what lies outside the repository

`Settings` are the values `sms_relay/config.py` reads once at import.  `Env` holds the
two JSON variables that are properties and are read again at every use.  `Lib` collects
the library functions that the relay calls and that are not part of its source.
-/

namespace SmsRelay

/-- `settings.provider`: `"dev"`, or anything else for the Android gateway. -/
inductive ProviderName where
  | androidGateway
  | dev
  deriving DecidableEq, Repr

structure Settings where
  provider : ProviderName
  defaultRegion : String
  maxAttempts : Int
  /-- How long a message may sit in `sending` before it is queued again. -/
  stuckAfterSeconds : Int
  retentionDays : Int
  ntfyUrl : String
  deriving Repr

/-- A downstream service that wants inbound messages pushed to it. -/
structure Subscriber where
  name : PyStr
  url : PyStr
  secret : PyStr
  events : List PyStr
  deriving DecidableEq, Repr

/-- The environment variables read at every use.  The routes are taken to have no
    surrogates. -/
structure Env where
  notificationRoutes : List (String × Json)
  /-- What evaluating `settings.subscribers` gives; it can raise. -/
  subscribers : Except PyError (List Subscriber)

/-- The outcome of `phonenumbers.parse`, `is_valid_number` and `format_number(E164)`. -/
inductive PhoneNumber where
  | unparsable (exc : String)
  | invalid
  | valid (e164 : String)
  deriving DecidableEq, Repr

/-- Library functions outside the repository. -/
structure Lib where
  /-- libphonenumber, on a candidate and a region. -/
  phonenumbers : PyStr → String → PhoneNumber
  /-- `repr` of a `str`, which escapes surrogates. -/
  reprStr : PyStr → String
  /-- `str` of a `float`, `list` or `dict`, which escapes surrogates. -/
  strOf : Json PyStr → String
  /-- `re.search(pattern, body)`, which raises `re.error` on a malformed pattern. -/
  reSearch : String → String → Except PyError Bool
  /-- The text SQLite stores in a `VARCHAR` column for a bound `float`. -/
  realText : String → Option String
  /-- `datetime.fromisoformat`, `none` when it raises `ValueError`. -/
  fromisoformat : PyStr → Option DateTime
  /-- `isoformat` of a `datetime` read back from the database. -/
  isoformat : Time → String
  /-- `json.dumps(x, separators=(",", ":"), sort_keys=True)` -/
  dumps : Json → String
  /-- `hmac.new(secret, body, sha256).hexdigest()` -/
  hmacSha256 : String → String → String

/-- `str(x)`. -/
def Lib.str {σ : Type} [Str σ] (lib : Lib) : Json σ → σ
  | .null => Str.ofString "None"
  | .bool true => Str.ofString "True"
  | .bool false => Str.ofString "False"
  | .int n => Str.ofString (toString n)
  | .str s => s
  | x => Str.ofString (lib.strOf x.toPy)

/-- The code point as a `str`. -/
def CodePoint.singleton : CodePoint → PyStr
  | .char c => .text (String.singleton c)
  | .surrogate n => .lone ⟨[], n, []⟩

/-- `tuple(events)`: the items of a list, the code points of a string, the keys of a dict.
    Items that are no `str` are left out, they equal no event name. -/
def tupleOf : Json PyStr → Except PyError (List PyStr)
  | .arr items => .ok (items.filterMap fun
      | .str s => some s
      | _ => none)
  | .str s => .ok (s.codes.map CodePoint.singleton)
  | .obj items => .ok (items.map Prod.fst)
  | _ => .error .typeError

/-- One entry of `SMS_RELAY_SUBSCRIBERS`; `none` when it is skipped as malformed. -/
def subscriberOf (lib : Lib) (entry : Json PyStr) : Except PyError (Option Subscriber) :=
  match entry with
  | .obj items =>
    let url := Json.get items "url"
    if url.truthy then do
      let events ← tupleOf ((Json.get items "events").or (.arr [.str "message.received"]))
      return some
        { name := lib.str ((Json.get items "name").or url)
          url := lib.str url
          secret := lib.str ((Json.lookup items "secret").getD (.str ""))
          events := events }
    else .ok none
  | _ => .ok none

/-- `settings.subscribers`, for what `_env_json` has returned. -/
def subscribersOf (lib : Lib) (raw : Json PyStr) : Except PyError (List Subscriber) :=
  match raw with
  | .arr entries => (entries.mapM (subscriberOf lib)).map fun subs => subs.filterMap id
  | _ => .ok []

/-- `_env_json(key, default)`, for the text of the variable.  `loads` is `json.loads`,
    `none` when it raises `JSONDecodeError`; it is taken to raise nothing else. -/
def envJson (loads : PyStr → Option (Json PyStr)) (value : PyStr) (default : Json PyStr) :
    Json PyStr :=
  let raw := value.strip
  if raw = "" then default else (loads raw).getD default

/-- `settings.subscribers`, for the text of `SMS_RELAY_SUBSCRIBERS`. -/
def subscribers (lib : Lib) (loads : PyStr → Option (Json PyStr)) (value : PyStr) :
    Except PyError (List Subscriber) :=
  subscribersOf lib (envJson loads value (.arr []))

/-- Both properties, for what `_env_json` has returned for each. -/
def Env.read (lib : Lib) (routes : Json) (subscribers : Json PyStr) : Env where
  notificationRoutes :=
    match routes with
    | .obj items => items
    | _ => []
  subscribers := subscribersOf lib subscribers

/-- What `lifespan` evaluates before it yields: `len(settings.subscribers)`, for its log
    line.  An exception here ends the start of the process. -/
def lifespan (env : Env) : Except PyError Nat := env.subscribers.map List.length

/-- Bind a Python value to a `VARCHAR` column: `none` when sqlite3 refuses the type, the
    integer or a surrogate, else the stored text, with `None` as `NULL`. -/
def Lib.bindText (lib : Lib) : Json PyStr → Option (Option String)
  | .null => some none
  | .bool b => some (some (if b then "1" else "0"))
  | .int n => if -(2 ^ 63) ≤ n ∧ n < 2 ^ 63 then some (some (toString n)) else none
  | .float repr => some (lib.realText repr)
  | .str s => s.encode.map some
  | .arr _ => none
  | .obj _ => none

end SmsRelay
