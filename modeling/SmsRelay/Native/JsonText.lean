import SmsRelay.ForStd.Reader
import SmsRelay.Native.Routes.Grafana

/-!
# JSON texts

The compact text that `json.dumps` makes of a value with `separators=(",", ":")`, as
`_payload` of `sms_relay/webhooks.py` does, and a reader of JSON texts for the other end
of the wire.
-/

namespace SmsRelay

open Grafana (dumpsStr)

namespace Json

/-! ## The writer -/

mutual

/-- `json.dumps(x, separators=(",", ":"))`; the `repr` of a finite `float` is its text. -/
def text : Json → List Char
  | .null => ['n', 'u', 'l', 'l']
  | .bool true => ['t', 'r', 'u', 'e']
  | .bool false => ['f', 'a', 'l', 's', 'e']
  | .int n => (toString n).toList
  | .float repr => repr.toList
  | .str s => dumpsStr s
  | .arr items => '[' :: ([','].intercalate (texts items) ++ [']'])
  | .obj items => '{' :: ([','].intercalate (memberTexts items) ++ ['}'])

/-- The texts of the items of a list. -/
def texts : List Json → List (List Char)
  | [] => []
  | x :: items => text x :: texts items

/-- The texts of the members of an object. -/
def memberTexts : List (String × Json) → List (List Char)
  | [] => []
  | (key, x) :: items => (dumpsStr key ++ ':' :: text x) :: memberTexts items

end

/-- `json.dumps(x, separators=(",", ":"), sort_keys=True)` of a value whose objects list
    their items in the order of the keys. -/
def compact (x : Json) : String := String.ofList x.text

end Json

end SmsRelay
