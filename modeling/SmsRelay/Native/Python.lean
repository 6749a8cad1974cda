/-!
# Python values and exceptions

What the relay's code takes from the language: strings with their slices and `strip`, the
values `json.loads` can return with their truth value and `dict.get`, clock readings, and
the exceptions its `except` clauses tell apart.
-/

namespace SmsRelay

/-- A UTC instant in microseconds, the resolution of `datetime`. -/
abbrev Time := Int

/-- `timedelta(seconds=n)`. -/
def seconds (n : Int) : Time := n * 1000000

/-- `timedelta(days=n)`. -/
def days (n : Int) : Time := seconds (n * 86400)

/-- A `datetime`: its year-to-microsecond fields, read as if they were UTC, and the
    offset of its `tzinfo`, `none` for a naive one. -/
structure DateTime where
  fields : Time
  utcoffset : Option Time
  deriving DecidableEq, Repr

/-! ## Strings -/

/-- A code point of a `str`. -/
inductive CodePoint where
  | char (c : Char)
  /-- `U+D800 + n`: a surrogate, which is no character. -/
  | surrogate (n : Fin 2048)
  deriving DecidableEq, Repr

/-- A `str` with a surrogate in it: the characters before the first one, that surrogate, and
    the code points after it. -/
structure LoneStr where
  before : List Char
  surrogate : Fin 2048
  after : List CodePoint
  deriving DecidableEq, Repr

/-- A `str`.  Its code points may be surrogates, which UTF-8 does not encode: `json.loads`
    gives one for the escape `\ud800`, `os.environ` for a byte that is not UTF-8. -/
inductive PyStr where
  | text (s : String)
  | lone (s : LoneStr)
  deriving DecidableEq, Repr

instance : Coe String PyStr := ⟨.text⟩

namespace PyStr

/-- The code points. -/
def codes : PyStr → List CodePoint
  | .text s => s.toList.map .char
  | .lone s => s.before.map .char ++ .surrogate s.surrogate :: s.after

/-- `s.encode()`, by the characters it encodes: `none` for the `UnicodeEncodeError` of a
    surrogate, which `sqlite3` raises as well when it binds the `str`. -/
def encode : PyStr → Option String
  | .text s => some s
  | .lone _ => none

@[simp] theorem encode_text (s : String) : encode (.text s) = some s := rfl

@[simp] theorem encode_lone (s : LoneStr) : encode (.lone s) = none := rfl

theorem encode_eq_some {s : PyStr} {t : String} : s.encode = some t ↔ s = .text t := by
  cases s with
  | text s => simp
  | lone s => simp

/-- `s + t`. -/
def append : PyStr → PyStr → PyStr
  | .text s, .text t => .text (s ++ t)
  | .text s, .lone t => .lone { t with before := s.toList ++ t.before }
  | .lone s, t => .lone { s with after := s.after ++ t.codes }

instance : Append PyStr := ⟨append⟩

@[simp] theorem text_append (s t : String) : PyStr.text s ++ PyStr.text t = .text (s ++ t) := rfl

/-- A concatenation has no surrogate when its parts have none. -/
@[simp] theorem isSome_encode_append (s t : PyStr) :
    (s ++ t).encode.isSome = (s.encode.isSome && t.encode.isSome) := by
  cases s with
  | text s => cases t <;> rfl
  | lone s => cases t <;> rfl

end PyStr

/-- The strings of the model: every `str`, or a `String` where none has a surrogate. -/
class Str (σ : Type) where
  ofString : String → σ
  toPyStr : σ → PyStr

instance : Str String := ⟨id, .text⟩

instance : Str PyStr := ⟨.text, id⟩

@[simp] theorem toPyStr_string (s : String) : Str.toPyStr s = .text s := rfl

@[simp] theorem toPyStr_pyStr (s : PyStr) : Str.toPyStr s = s := rfl

@[simp] theorem ofString_string (s : String) : (Str.ofString s : String) = s := rfl

@[simp] theorem ofString_pyStr (s : String) : (Str.ofString s : PyStr) = .text s := rfl

/-- `s[:n]`. -/
def sliceTo (n : Nat) (s : String) : String := String.ofList (s.toList.take n)

/-- The characters `str.strip` removes. -/
def isSpace (c : Char) : Bool :=
  c.toNat ∈ [0x09, 0x0a, 0x0b, 0x0c, 0x0d, 0x1c, 0x1d, 0x1e, 0x1f, 0x20, 0x85, 0xa0, 0x1680,
    0x2000, 0x2001, 0x2002, 0x2003, 0x2004, 0x2005, 0x2006, 0x2007, 0x2008, 0x2009, 0x200a,
    0x2028, 0x2029, 0x202f, 0x205f, 0x3000]

/-- `s.strip()`. -/
def strip (s : String) : String :=
  String.ofList ((s.toList.dropWhile isSpace).reverse.dropWhile isSpace).reverse

/-- `str.strip` removes this code point. -/
def CodePoint.isSpace : CodePoint → Bool
  | .char c => SmsRelay.isSpace c
  | .surrogate _ => false

namespace PyStr

/-- `s[:n]`. -/
def sliceTo (n : Nat) : PyStr → PyStr
  | .text s => .text (SmsRelay.sliceTo n s)
  | .lone s =>
    if n ≤ s.before.length then .text (String.ofList (s.before.take n))
    else .lone { s with after := s.after.take (n - s.before.length - 1) }

/-- `s.strip()`. -/
def strip : PyStr → PyStr
  | .text s => .text (SmsRelay.strip s)
  | .lone s =>
    .lone { s with
      before := s.before.dropWhile SmsRelay.isSpace
      after := (s.after.reverse.dropWhile CodePoint.isSpace).reverse }

@[simp] theorem sliceTo_text (n : Nat) (s : String) :
    sliceTo n (.text s) = .text (SmsRelay.sliceTo n s) := rfl

/-- A slice has no surrogate when the whole has none. -/
theorem isSome_encode_sliceTo {s : PyStr} (n : Nat) (h : s.encode.isSome) :
    (s.sliceTo n).encode.isSome := by
  cases s with
  | text s => rfl
  | lone s => cases h

@[simp] theorem strip_text (s : String) : strip (.text s) = .text (SmsRelay.strip s) := rfl

end PyStr

/-! ## JSON values -/

/-- A value returned by `json.loads`, with strings in `σ`.  A `float` is given by its `repr`;
    an object lists the items of the `dict`, whose keys are distinct. -/
inductive Json (σ : Type := String) where
  | null
  | bool (b : Bool)
  | int (n : Int)
  | float (repr : String)
  | str (s : σ)
  | arr (items : List (Json σ))
  | obj (items : List (σ × Json σ))
  deriving Repr

namespace Json

variable {σ : Type} [Str σ] [DecidableEq σ]

/-- `bool(x)`. -/
def truthy : Json σ → Bool
  | .null => false
  | .bool b => b
  | .int n => n ≠ 0
  | .float repr => repr ≠ "0.0" ∧ repr ≠ "-0.0"
  | .str s => Str.toPyStr s ≠ ""
  | .arr items => !items.isEmpty
  | .obj items => !items.isEmpty

/-- `x or y`. -/
def or (x y : Json σ) : Json σ := if x.truthy then x else y

/-- The value stored under a key of the items of a `dict`. -/
def lookup (items : List (σ × Json σ)) (key : σ) : Option (Json σ) :=
  (items.find? fun kv => kv.1 = key).map Prod.snd

/-- `d.get(key)` on the items of a `dict`. -/
def get (items : List (σ × Json σ)) (key : σ) : Json σ :=
  (lookup items key).getD .null

mutual

/-- The value as one of those that may hold surrogates. -/
def toPy : Json σ → Json PyStr
  | .null => .null
  | .bool b => .bool b
  | .int n => .int n
  | .float repr => .float repr
  | .str s => .str (Str.toPyStr s)
  | .arr items => .arr (itemsToPy items)
  | .obj items => .obj (membersToPy items)

/-- The items of a list. -/
def itemsToPy : List (Json σ) → List (Json PyStr)
  | [] => []
  | x :: items => toPy x :: itemsToPy items

/-- The members of an object. -/
def membersToPy : List (σ × Json σ) → List (PyStr × Json PyStr)
  | [] => []
  | (key, x) :: items => (Str.toPyStr key, toPy x) :: membersToPy items

end

end Json

/-! ## Exceptions -/

/-- The exceptions that the code raises, catches or lets through. -/
inductive PyError where
  /-- `httpx.HTTPError` or a subclass, with its text. -/
  | httpError (text : PyStr)
  | timeout
  | valueError (text : String)
  /-- `UnicodeEncodeError`, a subclass of `ValueError`. -/
  | unicodeEncodeError
  | keyError
  | typeError
  | attributeError
  /-- `InvalidPhoneNumber`, a subclass of `ValueError`. -/
  | invalidPhoneNumber (text : String)
  /-- `ProviderError` with its `permanent` flag. -/
  | providerError (message : PyStr) (permanent : Bool)
  /-- `fastapi.HTTPException`. -/
  | httpException (status : Nat) (detail : String)
  /-- Any other subclass of `Exception`, such as `httpx.InvalidURL` or `re.error`. -/
  | other (text : String)
  deriving DecidableEq, Repr

/-- The exceptions of `json.loads`, as far as the `except` clauses around it tell them apart. -/
inductive LoadsError where
  /-- `json.JSONDecodeError`, a subclass of `ValueError`. -/
  | jsonDecodeError
  /-- Any other `ValueError`: an integer of more than 4300 digits, or bytes that no encoding of
      JSON gives. -/
  | valueError
  /-- Any other exception: a `RecursionError`, for brackets nested too deep. -/
  | other (text : String)
  deriving DecidableEq, Repr

/-- The exception as the code sees it. -/
def LoadsError.toPyError : LoadsError → PyError
  | .jsonDecodeError => .valueError "JSONDecodeError"
  | .valueError => .valueError "json.loads"
  | .other text => .other text

end SmsRelay
