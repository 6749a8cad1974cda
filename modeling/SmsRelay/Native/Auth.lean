import SmsRelay.Native.Config

/-!
# Authentication

`sms_relay/auth.py`: `require_api_key` for the callers of the API, with the
`settings.api_keys` it looks through, and `verify_inbound_signature` for the gateway.
Header values are text in latin-1, `none` when the header is missing.
-/

namespace SmsRelay

/-! ## What the code takes from the language -/

/-- The text is ASCII. -/
def isAscii (s : String) : Bool := s.toList.all fun c => c.toNat < 128

/-- The `str` is ASCII. -/
def PyStr.isAscii : PyStr → Bool
  | .text s => SmsRelay.isAscii s
  | .lone _ => false

@[simp] theorem PyStr.isAscii_text (s : String) :
    PyStr.isAscii (.text s) = SmsRelay.isAscii s := rfl

/-- `hmac.compare_digest(a, b)` on two `str`: a `TypeError` when one of them has a code point
    that is not ASCII. -/
def compareDigest (a b : PyStr) : Except PyError Bool :=
  if a.isAscii && b.isAscii then .ok (a = b) else .error .typeError

/-- `str.lower` of one character, in latin-1. -/
def lowerChar (c : Char) : Char :=
  if ('A' ≤ c ∧ c ≤ 'Z') ∨ (0xC0 ≤ c.toNat ∧ c.toNat ≤ 0xDE ∧ c.toNat ≠ 0xD7) then
    Char.ofNat (c.toNat + 32)
  else c

/-- `s.lower()`. -/
def lower (s : String) : String := s.map lowerChar

/-- `s[n:]`. -/
def sliceFrom (n : Nat) (s : String) : String := String.ofList (s.toList.drop n)

/-- `s.startswith(start)`. -/
def startsWith (start s : String) : Bool := start.toList.isPrefixOf s.toList

/-- `s.removeprefix(start)`. -/
def removeStart (start s : String) : String :=
  if startsWith start s then sliceFrom start.length s else s

/-- `d[key] = value`: a new key comes last, an old one stays at its place. -/
def dictSet (d : List (PyStr × PyStr)) (key value : PyStr) : List (PyStr × PyStr) :=
  if d.any fun kv => kv.1 = key then d.map fun kv => if kv.1 = key then (key, value) else kv
  else d ++ [(key, value)]

/-! ## API keys -/

/-- `settings.api_keys`, for what `_env_json` has returned: the map of name to key, turned
    round. -/
def apiKeys (lib : Lib) (configured : Json PyStr) : List (PyStr × PyStr) :=
  match configured with
  | .obj items =>
    items.foldl (fun d kv => if kv.2.truthy then dictSet d (lib.str kv.2) kv.1 else d) []
  | _ => []

/-- The key of a request: the Bearer token if that scheme is used, else `X-API-Key`. -/
def presentedKey (authorization xApiKey : Option String) : String :=
  match authorization with
  | some value =>
    if value ≠ "" ∧ startsWith "bearer " (lower value) then strip (sliceFrom 7 value)
    else strip (xApiKey.getD "")
  | none => strip (xApiKey.getD "")

/-- The loop over every configured key. -/
def matchKeys (presented : PyStr) :
    PyStr → List (PyStr × PyStr) → Except PyError PyStr
  | matched, [] => .ok matched
  | matched, (key, service) :: rest => do
    let equal ← compareDigest presented key
    matchKeys presented (if equal then service else matched) rest

/-- `require_api_key`. -/
def requireApiKey (lib : Lib) (configured : Json PyStr) (authorization xApiKey : Option String) :
    Except PyError PyStr :=
  let presented := presentedKey authorization xApiKey
  if presented = "" then .error (.httpException 401 "missing API key")
  else do
    let matched ← matchKeys presented "" (apiKeys lib configured)
    if matched = "" then .error (.httpException 401 "invalid API key") else .ok matched

/-! ## Signatures -/

/-- `digest.hex()` -/
def hexdigest (digest : List UInt8) : String :=
  String.ofList
    (digest.flatMap fun b => [Nat.digitChar (b.toNat / 16), Nat.digitChar (b.toNat % 16)])

/-- `sign`; `hmacSha256` gives the 32 bytes of the digest. -/
def sign (hmacSha256 : List UInt8 → List UInt8 → Vector UInt8 32) (body : List UInt8)
    (secret : PyStr) : Except PyError String :=
  match secret.encode with
  | some secret => .ok (hexdigest (hmacSha256 secret.toUTF8.toList body).toList)
  | none => .error .unicodeEncodeError

/-- The signature of a request: `X-Signature`, or else `X-Hub-Signature-256`. -/
def presentedSignature (signature hubSignature : Option String) : String :=
  let value := if signature.getD "" = "" then hubSignature.getD "" else signature.getD ""
  removeStart "sha256=" (strip value)

/-- `verify_inbound_signature`. -/
def verifyInboundSignature (hmacSha256 : List UInt8 → List UInt8 → Vector UInt8 32)
    (secret : PyStr) (signature hubSignature : Option String) (body : List UInt8) :
    Except PyError (List UInt8) :=
  if secret = "" then .error (.httpException 503 "inbound webhooks are not configured")
  else
    let presented := presentedSignature signature hubSignature
    if presented = "" then .error (.httpException 401 "bad signature")
    else do
      let signature ← sign hmacSha256 body secret
      let equal ← compareDigest presented signature
      if equal then .ok body else .error (.httpException 401 "bad signature")

end SmsRelay
