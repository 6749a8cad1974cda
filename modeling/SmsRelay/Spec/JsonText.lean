import Mathlib.Data.List.TakeWhile
import SmsRelay.Native.JsonText
import SmsRelay.Spec.Authentication
import SmsRelay.Spec.Dumps

/-!
# Reading JSON texts back

A reader of JSON texts, for the other end of the wire, and the proof that it gives back
every value that the compact writer was given.

## Key results

- `readValue_text`: a value is read off the front of any text
- `read_compact`: what the relay serializes parses back to the same value
- `isAscii_compact`: the text is ASCII, so its bytes do not depend on an encoding
-/

namespace SmsRelay.Json

open Grafana (dumpsStr escapeAscii shortEscape unicodeEscape unescape unescape_escapeAscii)
open Reader (Stops token)

/-! ## Words -/

/-- The blanks between the parts of a text. -/
def isBlank (c : Char) : Bool := c = ' ' || c = '\n' || c = '\r' || c = '\t'

/-- The characters of numbers and of the words `null`, `true` and `false`. -/
def inWord (c : Char) : Bool := c.isAlphanum || c = '-' || c = '+' || c = '.'

/-- `0|[1-9]\d*` -/
def isNatural (w : List Char) : Bool :=
  w.all Char.isDigit && (w.length = 1 || (w.head?.any fun c => c ≠ '0'))

/-- A text without its sign. -/
def unsigned : List Char → List Char
  | '-' :: w => w
  | w => w

/-- `-?(0|[1-9]\d*)` -/
def isInteger (w : List Char) : Bool := isNatural (unsigned w)

/-- `([eE][-+]?\d+)?` -/
def isExponent : List Char → Bool
  | [] => true
  | c :: w =>
    let digits := match w with
      | '+' :: w => w
      | w => unsigned w
    (c = 'e' || c = 'E') && !digits.isEmpty && digits.all Char.isDigit

/-- `(\.\d+)?([eE][-+]?\d+)?` -/
def isFraction : List Char → Bool
  | '.' :: w => !(token Char.isDigit w).1.isEmpty && isExponent (token Char.isDigit w).2
  | w => isExponent w

/-- `-?(0|[1-9]\d*)(\.\d+)?([eE][-+]?\d+)?` -/
def isNumber (w : List Char) : Bool :=
  isNatural (token Char.isDigit (unsigned w)).1 && isFraction (token Char.isDigit (unsigned w)).2

/-- The value of an integer. -/
def integer : List Char → Int
  | '-' :: w => -(Nat.ofDigitChars 10 w 0 : Int)
  | w => Nat.ofDigitChars 10 w 0

/-- The value of a word. -/
def ofWord (w : List Char) : Option Json :=
  if w = ['n', 'u', 'l', 'l'] then some .null
  else if w = ['t', 'r', 'u', 'e'] then some (.bool true)
  else if w = ['f', 'a', 'l', 's', 'e'] then some (.bool false)
  else if isInteger w then some (.int (integer w))
  else if isNumber w then some (.float (String.ofList w))
  else none

/-! ## The reader -/

/-- A word off the front of a text. -/
def readWord (text : List Char) : Option (Json × List Char) :=
  (ofWord (token inWord text).1).map fun x => (x, (token inWord text).2)

/-- A string behind its opening quote. -/
def readString (text : List Char) : Option (String × List Char) :=
  (Reader.readUntil '"' unescape (text.length + 1) text).map fun p => (String.ofList p.1, p.2)

/-- A member of an object, given the reader of its value. -/
def readMember (value : List Char → Option (Json × List Char)) (text : List Char) :
    Option ((String × Json) × List Char) :=
  match text.dropWhile isBlank with
  | '"' :: text =>
    (readString text).bind fun p =>
      match p.2.dropWhile isBlank with
      | ':' :: rest => (value rest).map fun q => ((p.1, q.1), q.2)
      | _ => none
  | _ => none

/-- A value off the front of a text, of so many levels at most. -/
def readValue : Nat → List Char → Option (Json × List Char)
  | 0, _ => none
  | n + 1, text =>
    match text.dropWhile isBlank with
    | '"' :: text => (readString text).map fun p => (.str p.1, p.2)
    | '[' :: text =>
      (Reader.readList isBlank ',' ']' (readValue n) text).map fun p => (.arr p.1, p.2)
    | '\x7b' :: text =>
      (Reader.readList isBlank ',' '\x7d' (readMember (readValue n)) text).map fun p =>
        (.obj p.1, p.2)
    | text => readWord text

/-- The value of a whole text. -/
def read (s : String) : Option Json :=
  (readValue (s.length + 1) s.toList).bind fun p =>
    if (p.2.dropWhile isBlank).isEmpty then some p.1 else none

/-- Every `float` in the value is finite, so that its `repr` is a JSON number. -/
inductive Finite : Json → Prop
  | null : Finite .null
  | bool (b : Bool) : Finite (.bool b)
  | int (n : Int) : Finite (.int n)
  | float {repr : String} : isNumber repr.toList = true → isInteger repr.toList = false →
      Finite (.float repr)
  | str (s : String) : Finite (.str s)
  | arr {items : List Json} : (∀ x ∈ items, Finite x) → Finite (.arr items)
  | obj {items : List (String × Json)} : (∀ kv ∈ items, Finite kv.2) → Finite (.obj items)

/-! ## Words are read back -/

/-- A digit belongs to a word. -/
private theorem inWord_digit {c : Char} (h : c.isDigit = true) : inWord c = true := by
  simp [inWord, Char.isAlphanum, h]

/-- The characters of a text belong to a word when those behind its sign do. -/
private theorem inWord_unsigned {w : List Char} (h : ∀ c ∈ unsigned w, inWord c = true) :
    ∀ c ∈ w, inWord c = true := by
  intro c hc
  unfold unsigned at h
  split at h
  · rcases List.mem_cons.mp hc with rfl | hc
    · decide
    · exact h c hc
  · exact h c hc

/-- The characters of an exponent belong to a word. -/
private theorem inWord_exponent {w : List Char} (h : isExponent w = true) :
    ∀ c ∈ w, inWord c = true := by
  cases w with
  | nil => exact fun c hc => absurd hc List.not_mem_nil
  | cons e w =>
    simp only [isExponent, Bool.and_eq_true, Bool.or_eq_true, decide_eq_true_eq,
      List.all_eq_true] at h
    obtain ⟨⟨he, -⟩, hdigits⟩ := h
    intro c hc
    rcases List.mem_cons.mp hc with rfl | hc
    · rcases he with rfl | rfl <;> decide
    · split at hdigits
      · rcases List.mem_cons.mp hc with rfl | hc
        · decide
        · exact inWord_digit (hdigits c hc)
      · exact inWord_unsigned (fun d hd => inWord_digit (hdigits d hd)) c hc

/-- The characters of a number belong to a word. -/
private theorem inWord_number {w : List Char} (h : isNumber w = true) :
    ∀ c ∈ w, inWord c = true := by
  unfold isNumber at h
  obtain ⟨-, hfraction⟩ := (Bool.and_eq_true _ _).mp h
  -- A text is its digits in front and what follows them
  have hsplit : ∀ v : List Char,
      (∀ c ∈ (token Char.isDigit v).2, inWord c = true) → ∀ c ∈ v, inWord c = true := by
    intro v hrest c hc
    rw [← List.takeWhile_append_dropWhile (p := Char.isDigit) (l := v)] at hc
    rcases List.mem_append.mp hc with hc | hc
    · exact inWord_digit (List.mem_takeWhile_imp hc)
    · exact hrest c hc
  apply inWord_unsigned
  apply hsplit
  intro c hc
  unfold isFraction at hfraction
  split at hfraction
  · next v heq =>
    obtain ⟨-, hexponent⟩ := (Bool.and_eq_true _ _).mp hfraction
    rw [heq] at hc
    rcases List.mem_cons.mp hc with rfl | hc
    · decide
    · exact hsplit v (inWord_exponent hexponent) c hc
  · exact inWord_exponent hfraction c hc

/-- The first digit of a positive number is not zero. -/
private theorem head_toDigits (n : Nat) : 0 < n → ∀ c ∈ (Nat.toDigits 10 n).head?, c ≠ '0' := by
  -- Strong induction: the digits in front are those of `n / 10`
  induction n using Nat.strong_induction_on with
  | _ n ih =>
    intro hpos c hc
    by_cases hlt : n < 10
    · rw [Nat.toDigits_of_lt_base hlt] at hc
      obtain rfl : n.digitChar = c := by simpa using hc
      rw [Ne, Nat.digitChar_eq_zero]
      omega
    · rw [Nat.toDigits_of_base_le (by decide) (by omega)] at hc
      apply ih (n / 10) (by omega) (by omega) c
      rwa [List.head?_append_of_ne_nil _ Nat.toDigits_ne_nil] at hc

/-- The digits of a number are a natural number without a leading zero. -/
private theorem isNatural_toDigits (n : Nat) : isNatural (Nat.toDigits 10 n) = true := by
  have hdigits : (Nat.toDigits 10 n).all Char.isDigit = true :=
    List.all_eq_true.mpr fun c hc => Nat.isDigit_of_mem_toDigits (by decide) (by decide) hc
  unfold isNatural
  rw [hdigits, Bool.true_and, Bool.or_eq_true]
  by_cases hzero : n = 0
  · subst hzero
    exact .inl rfl
  · obtain ⟨c, cs, hcons⟩ := List.exists_cons_of_ne_nil (Nat.toDigits_ne_nil (b := 10) (n := n))
    have hne := head_toDigits n (by omega) c (by simp [hcons])
    simp [hcons, hne]

/-- The text of an integer. -/
private theorem toList_int (n : Int) :
    (toString n).toList =
      if 0 ≤ n then Nat.toDigits 10 n.toNat else '-' :: Nat.toDigits 10 (-n).toNat := by
  show n.repr.toList = _
  rw [Int.repr_eq_if]
  split
  · rw [Nat.toList_repr]
  · simp

/-- A word that starts with a digit has no sign. -/
private theorem unsigned_toDigits (n : Nat) :
    unsigned (Nat.toDigits 10 n) = Nat.toDigits 10 n ∧ integer (Nat.toDigits 10 n) = n := by
  obtain ⟨c, cs, hcons⟩ := List.exists_cons_of_ne_nil (Nat.toDigits_ne_nil (b := 10) (n := n))
  have hdigit : c.isDigit = true :=
    Nat.isDigit_of_mem_toDigits (b := 10) (n := n) (by decide) (by decide) (by simp [hcons])
  have hsign : c ≠ '-' := fun h => by
    rw [h] at hdigit
    exact absurd hdigit (by decide)
  have hvalue : Nat.ofDigitChars 10 (c :: cs) 0 = n := by
    rw [← hcons, Nat.ofDigitChars_ten_toDigits]
  rw [hcons]
  constructor
  · simp [unsigned, hsign]
  · simp [integer, hsign, hvalue]

/-- A word that is an integer is none of the others. -/
private theorem ofWord_integer {w : List Char} (h : isInteger w = true) :
    ofWord w = some (.int (integer w)) := by
  unfold ofWord
  rw [if_neg, if_neg, if_neg, if_pos h] <;> rintro rfl <;> exact absurd h (by decide)

/-- **An integer is read back from its text.** -/
private theorem ofWord_int (n : Int) :
    (∀ c ∈ (toString n).toList, inWord c = true) ∧ ofWord (toString n).toList = some (.int n) := by
  have hdigit : ∀ k : Nat, ∀ c ∈ Nat.toDigits 10 k, inWord c = true := fun k c hc =>
    inWord_digit (Nat.isDigit_of_mem_toDigits (by decide) (by decide) hc)
  rw [toList_int]
  split
  · next hpos =>
    obtain ⟨hunsigned, hvalue⟩ := unsigned_toDigits n.toNat
    refine ⟨hdigit n.toNat, ?_⟩
    rw [ofWord_integer (by rw [isInteger, hunsigned]; exact isNatural_toDigits _), hvalue,
      Int.toNat_of_nonneg hpos]
  · next hneg =>
    refine ⟨inWord_unsigned (hdigit (-n).toNat), ?_⟩
    have hvalue : integer ('-' :: Nat.toDigits 10 (-n).toNat) = n := by
      show -(Nat.ofDigitChars 10 (Nat.toDigits 10 (-n).toNat) 0 : Int) = n
      rw [Nat.ofDigitChars_ten_toDigits]
      omega
    have hinteger : isInteger ('-' :: Nat.toDigits 10 (-n).toNat) = true := isNatural_toDigits _
    rw [ofWord_integer hinteger, hvalue]

/-- **A finite float is read back from its text.** -/
private theorem ofWord_float {w : List Char} (h : isNumber w = true) (hint : isInteger w = false) :
    ofWord w = some (.float (String.ofList w)) := by
  unfold ofWord
  rw [if_neg, if_neg, if_neg, if_neg (by simp [hint]), if_pos h] <;> rintro rfl <;>
    exact absurd h (by decide)

/-- A word in front of a text that does not go on with it. -/
private theorem readWord_append {w : List Char} {x : Json} (hw : ∀ c ∈ w, inWord c = true)
    (hx : ofWord w = some x) {rest : List Char} (hrest : Stops inWord rest) :
    readWord (w ++ rest) = some (x, rest) := by
  simp only [readWord, Reader.token_append hw hrest, hx, Option.map_some]

/-! ## Texts are read back -/

/-- A string is read back behind its opening quote. -/
private theorem readString_append (s : String) (rest : List Char) :
    readString (s.toList.flatMap escapeAscii ++ '"' :: rest) = some (s, rest) := by
  have hcodes : ∀ c ∈ s.toList, escapeAscii c ≠ [] := fun c _ h => by
    obtain ⟨d, ds, hcons, -⟩ := Grafana.escapeAscii_cons c
    rw [h] at hcons
    cases hcons
  have hlen : s.toList.length < (s.toList.flatMap escapeAscii ++ '"' :: rest).length + 1 := by
    have hflat := Reader.length_le_flatMap hcodes
    rw [List.length_append]
    omega
  unfold readString
  rw [Reader.readUntil_flatMap (fun c _ => unescape_escapeAscii c) Grafana.escapeAscii_cons rest
    hlen]
  simp

/-- The texts of the parts are those of the values. -/
theorem texts_eq (items : List Json) : texts items = items.map text := by
  induction items with
  | nil => rfl
  | cons x items ih => rw [texts, ih, List.map_cons]

/-- The text of a member of an object. -/
def memberText (kv : String × Json) : List Char := dumpsStr kv.1 ++ ':' :: text kv.2

theorem memberTexts_eq (items : List (String × Json)) :
    memberTexts items = items.map memberText := by
  induction items with
  | nil => rfl
  | cons kv items ih =>
    obtain ⟨key, x⟩ := kv
    rw [memberTexts, ih, List.map_cons, memberText]

/-- The symbols behind a value do not belong to a word. -/
private theorem stops_of_punctuation {c : Char} {rest : List Char}
    (h : c = ',' ∨ c = ']' ∨ c = '\x7d') : Stops inWord (c :: rest) := by
  apply Stops.cons
  rcases h with rfl | rfl | rfl <;> decide

/-- A member is read back when its value is. -/
private theorem readMember_append {value : List Char → Option (Json × List Char)}
    (kv : String × Json) {rest : List Char}
    (hvalue : value (text kv.2 ++ rest) = some (kv.2, rest)) :
    readMember value (memberText kv ++ rest) = some (kv, rest) := by
  have hblank : isBlank '"' = false := by decide
  have hcolon : isBlank ':' = false := by decide
  have htext : memberText kv ++ rest =
      '"' :: (kv.1.toList.flatMap escapeAscii ++ '"' :: ':' :: (text kv.2 ++ rest)) := by
    simp [memberText, dumpsStr]
  unfold readMember
  rw [htext]
  simp only [List.dropWhile_cons, hblank, Bool.false_eq_true, if_false, readString_append,
    Option.bind_some, hcolon, hvalue, Option.map_some]

/-- The text of the value is a word. -/
private def IsWord (x : Json) : Prop :=
  (∀ c ∈ text x, inWord c = true) ∧ ofWord (text x) = some x

/-- The numbers and the three names are words. -/
private theorem isWord_cases {x : Json} (hx : Finite x) :
    IsWord x ∨ (∃ s, x = .str s) ∨ (∃ items, x = .arr items ∧ ∀ y ∈ items, Finite y) ∨
      ∃ items, x = .obj items ∧ ∀ kv ∈ items, Finite kv.2 := by
  cases hx with
  | null => exact .inl ⟨List.all_eq_true.mp (by decide), rfl⟩
  | bool b => cases b <;> exact .inl ⟨List.all_eq_true.mp (by decide), rfl⟩
  | int n =>
    obtain ⟨hword, hvalue⟩ := ofWord_int n
    exact .inl ⟨by rwa [text], by rw [text, hvalue]⟩
  | @float repr hnumber hint =>
    refine .inl ⟨?_, ?_⟩
    · rw [text]
      exact inWord_number hnumber
    · rw [text, ofWord_float hnumber hint, String.ofList_toList]
  | str s => exact .inr (.inl ⟨s, rfl⟩)
  | arr hitems => exact .inr (.inr (.inl ⟨_, rfl, hitems⟩))
  | obj hitems => exact .inr (.inr (.inr ⟨_, rfl, hitems⟩))

/-- A word has a first character, and it is no blank, quote or bracket. -/
private theorem IsWord.cons {x : Json} (h : IsWord x) :
    ∃ c cs, text x = c :: cs ∧ isBlank c = false ∧ c ∉ ['"', '[', ']', '\x7b', '\x7d'] := by
  obtain ⟨hword, hvalue⟩ := h
  cases htext : text x with
  | nil =>
    rw [htext] at hvalue
    cases hvalue
  | cons c cs =>
    have hc : inWord c = true := hword c (by simp [htext])
    refine ⟨c, cs, rfl, ?_, fun hmem => ?_⟩
    · by_contra hblank
      simp only [isBlank, Bool.or_eq_true, decide_eq_true_eq, Bool.not_eq_false] at hblank
      rcases hblank with ((rfl | rfl) | rfl) | rfl <;> exact absurd hc (by decide)
    · simp only [List.mem_cons, List.not_mem_nil, or_false] at hmem
      rcases hmem with rfl | rfl | rfl | rfl | rfl <;> exact absurd hc (by decide)

/-- A value starts with a symbol that is neither a blank nor closes a list. -/
private theorem text_cons {x : Json} (hx : Finite x) :
    ∃ c cs, text x = c :: cs ∧ c ≠ ']' ∧ isBlank c = false := by
  rcases isWord_cases hx with hword | ⟨s, rfl⟩ | ⟨items, rfl, -⟩ | ⟨items, rfl, -⟩
  · obtain ⟨c, cs, htext, hblank, hc⟩ := hword.cons
    exact ⟨c, cs, htext, fun h => hc (by simp [h]), hblank⟩
  · exact ⟨'"', _, rfl, by decide, by decide⟩
  · exact ⟨'[', _, rfl, by decide, by decide⟩
  · exact ⟨'\x7b', _, rfl, by decide, by decide⟩

/-- **A value is read off the front of any text** that does not go on with a word. -/
theorem readValue_text {n : Nat} : ∀ {x : Json}, Finite x → (text x).length ≤ n →
    ∀ rest, Stops inWord rest → readValue n (text x ++ rest) = some (x, rest) := by
  -- Induction on the levels: what stands in a list or an object is shorter than the whole
  induction n with
  | zero =>
    intro x hx hlen
    obtain ⟨c, cs, htext, -⟩ := text_cons hx
    rw [htext] at hlen
    simp at hlen
  | succ n ih =>
    intro x hx hlen rest hrest
    have hquote : isBlank '"' = false := by decide
    have hbracket : isBlank '[' = false := by decide
    have hbrace : isBlank '\x7b' = false := by decide
    have hcomma : isBlank ',' = false := by decide
    rcases isWord_cases hx with hword | ⟨s, rfl⟩ | ⟨items, rfl, hitems⟩ | ⟨items, rfl, hitems⟩
    · -- a word starts with no quote or bracket
      obtain ⟨c, cs, htext, hblank, hc⟩ := hword.cons
      simp only [List.mem_cons, List.not_mem_nil, or_false, not_or] at hc
      have hread := readWord_append hword.1 hword.2 hrest
      rw [htext, List.cons_append] at hread ⊢
      simp only [readValue, List.dropWhile_cons, hblank, Bool.false_eq_true, if_false]
      split
      · simp_all
      · simp_all
      · simp_all
      · exact hread
    · simp [readValue, text, dumpsStr, hquote, readString_append]
    · -- the items of a list are shorter than the list
      have hitem : ∀ y ∈ items, ∀ c tail, c = ',' ∨ c = ']' →
          readValue n (text y ++ c :: tail) = some (y, c :: tail) := by
        intro y hy c tail hc
        have hle : (text y).length ≤ ([','].intercalate (items.map text)).length :=
          Reader.length_item_le hy
        rw [text, texts_eq, List.length_cons, List.length_append] at hlen
        apply ih (hitems y hy) (by simp at hlen; omega)
        exact stops_of_punctuation (by tauto)
      have hlist := Reader.readList_intercalate isBlank (by decide) hcomma (by decide)
        hitem (fun y hy => text_cons (hitems y hy)) rest
      simp [readValue, text, texts_eq, hbracket, hlist]
    · -- and so are the members of an object
      have hmember : ∀ kv ∈ items, ∀ c tail, c = ',' ∨ c = '\x7d' →
          readMember (readValue n) (memberText kv ++ c :: tail) = some (kv, c :: tail) := by
        intro kv hkv c tail hc
        have hle : (memberText kv).length ≤ ([','].intercalate (items.map memberText)).length :=
          Reader.length_item_le hkv
        rw [text, memberTexts_eq, List.length_cons, List.length_append] at hlen
        apply readMember_append
        apply ih (hitems kv hkv) (by simp [memberText] at hle; simp at hlen; omega)
        exact stops_of_punctuation (by tauto)
      have hlist := Reader.readList_intercalate isBlank (by decide) hcomma (by decide)
        hmember (fun kv _ => ⟨'"', _, rfl, by decide, by decide⟩) rest
      simp [readValue, text, memberTexts_eq, hbrace, hlist]

/-- **What is serialized parses back to the same value.** -/
theorem read_compact {x : Json} (hx : Finite x) : read (compact x) = some x := by
  have hvalue := readValue_text hx (Nat.le_succ (text x).length) [] (.nil inWord)
  rw [List.append_nil] at hvalue
  have hchars : (compact x).toList = text x := String.toList_ofList
  have hlength : (compact x).length = (text x).length := by
    rw [← String.length_toList, hchars]
  unfold read
  rw [hlength, hchars, hvalue]
  -- nothing is left behind the value
  simp only [Option.bind_some, List.dropWhile_nil, List.isEmpty_nil, if_true]

/-! ## The text is ASCII -/

/-- Every character of a Unicode escape is ASCII. -/
private theorem unicodeEscape_ascii (n : Nat) : ∀ c ∈ unicodeEscape n, c.toNat < 128 := by
  have hdigit : ∀ k, (Nat.digitChar (k % 16)).toNat < 128 := fun k =>
    digitChar_ascii (k % 16) (Nat.mod_lt k (by decide))
  intro c hc
  simp only [unicodeEscape, List.mem_cons, List.not_mem_nil, or_false] at hc
  rcases hc with rfl | rfl | rfl | rfl | rfl | rfl
  · decide
  · decide
  all_goals exact hdigit _

/-- Every character is written in ASCII. -/
private theorem escapeAscii_ascii (c : Char) : ∀ d ∈ escapeAscii c, d.toNat < 128 := by
  intro d hd
  unfold escapeAscii at hd
  cases hshort : shortEscape c with
  | some k =>
    rw [hshort] at hd
    simp only [List.mem_cons, List.not_mem_nil, or_false] at hd
    rcases hd with rfl | rfl
    · decide
    · unfold shortEscape at hshort
      split at hshort
      all_goals first
        | (obtain rfl := Option.some.inj hshort; decide)
        | cases hshort
  | none =>
    rw [hshort] at hd
    dsimp only at hd
    split at hd
    · next hplain =>
      obtain rfl := List.mem_singleton.mp hd
      have hle : d.toNat ≤ '~'.toNat := hplain.2
      have htilde : '~'.toNat = 126 := by decide
      omega
    · split at hd
      · exact unicodeEscape_ascii _ d hd
      · rcases List.mem_append.mp hd with hd | hd <;> exact unicodeEscape_ascii _ d hd

/-- A string is written in ASCII. -/
private theorem dumpsStr_ascii (s : String) : ∀ c ∈ dumpsStr s, c.toNat < 128 := by
  intro c hc
  simp only [dumpsStr, List.mem_cons, List.mem_append, List.mem_flatMap, List.not_mem_nil,
    or_false] at hc
  rcases hc with (rfl | ⟨d, -, hd⟩) | rfl
  · decide
  · exact escapeAscii_ascii d c hd
  · decide

/-- The characters of words are ASCII. -/
private theorem inWord_ascii {c : Char} (h : inWord c = true) : c.toNat < 128 := by
  -- the ranges of letters and digits, written out
  have hranges : (((decide (c.val ≥ 'A'.val ∧ c.val ≤ 'Z'.val) ||
      decide (c.val ≥ 'a'.val) && decide (c.val ≤ 'z'.val)) ||
      decide (c.val ≥ '0'.val) && decide (c.val ≤ '9'.val)) ||
      decide (c = '-') || decide (c = '+') || decide (c = '.')) = true := h
  clear h
  simp only [Bool.or_eq_true, Bool.and_eq_true, decide_eq_true_eq, UInt32.le_iff_toNat_le,
    ge_iff_le] at hranges
  have hval : c.toNat = c.val.toNat := rfl
  have hZ : 'Z'.val.toNat = 90 := rfl
  have hz : 'z'.val.toNat = 122 := rfl
  have hnine : '9'.val.toNat = 57 := rfl
  rcases hranges with ((hranges | rfl) | rfl) | rfl
  · omega
  all_goals decide

/-- The parts of a list are ASCII and so is the list. -/
private theorem intercalate_ascii {texts : List (List Char)}
    (h : ∀ w ∈ texts, ∀ c ∈ w, c.toNat < 128) :
    ∀ c ∈ [','].intercalate texts, c.toNat < 128 := by
  cases texts with
  | nil => exact fun c hc => by cases hc
  | cons w texts =>
    rw [PrefixCode.IsPrefixCode.intercalate_cons]
    intro c hc
    rcases List.mem_append.mp hc with hc | hc
    · exact h w (by simp) c hc
    · obtain ⟨v, hv, hc⟩ := List.mem_flatMap.mp hc
      rcases List.mem_append.mp hc with hc | hc
      · obtain rfl := List.mem_singleton.mp hc
        decide
      · exact h v (List.mem_cons_of_mem w hv) c hc

/-- Every character of a text is ASCII. -/
private theorem text_ascii {x : Json} (hx : Finite x) : ∀ c ∈ text x, c.toNat < 128 := by
  -- Induction on the value: words and strings, and the lists of these
  induction hx with
  | null => exact fun c hc => inWord_ascii (List.all_eq_true.mp (by decide) c hc)
  | bool b =>
    cases b <;> exact fun c hc => inWord_ascii (List.all_eq_true.mp (by decide) c hc)
  | int n => exact fun c hc => inWord_ascii ((ofWord_int n).1 c (by rwa [text] at hc))
  | float hnumber _ =>
    intro c hc
    rw [text] at hc
    exact inWord_ascii (inWord_number hnumber c hc)
  | str s =>
    rw [text]
    exact dumpsStr_ascii s
  | arr _ ih =>
    intro c hc
    simp only [text, texts_eq, List.mem_cons, List.mem_append, List.not_mem_nil, or_false] at hc
    rcases hc with rfl | hc | rfl
    · decide
    · refine intercalate_ascii (fun w hw => ?_) c hc
      obtain ⟨y, hy, rfl⟩ := List.mem_map.mp hw
      exact ih y hy
    · decide
  | obj _ ih =>
    intro c hc
    simp only [text, memberTexts_eq, List.mem_cons, List.mem_append, List.not_mem_nil,
      or_false] at hc
    rcases hc with rfl | hc | rfl
    · decide
    · refine intercalate_ascii (fun w hw => ?_) c hc
      obtain ⟨kv, hkv, rfl⟩ := List.mem_map.mp hw
      intro d hd
      simp only [memberText, List.mem_append, List.mem_cons] at hd
      rcases hd with hd | rfl | hd
      · exact dumpsStr_ascii kv.1 d hd
      · decide
      · exact ih kv hkv d hd
    · decide

/-- **A serialized value is ASCII**, so its bytes are the same in every encoding in use. -/
theorem isAscii_compact {x : Json} (hx : Finite x) : isAscii (compact x) = true := by
  rw [isAscii, compact, String.toList_ofList, List.all_eq_true]
  exact fun c hc => decide_eq_true (text_ascii hx c hc)

end SmsRelay.Json
