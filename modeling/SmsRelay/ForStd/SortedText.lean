import Mathlib.Algebra.Order.Group.Nat
import Mathlib.Data.List.Lex
import Mathlib.Data.Char

/-!
# Texts in the order of what they stand for

Texts of one width can be compared instead of the numbers they stand for, when the more
significant part comes first.  A code is built from the codes of its parts: the quotient and
the remainder of a division, or any other split whose order is lexicographic.

## Key results

- `append_lt_append_iff`: texts of one length are compared from the front
- `Sorts.glue`, `Sorts.divMod`: the code of two parts, one behind the other
- `sorts_digits`: decimal numerals with leading zeros
-/

namespace SortedText

variable {σ : Type} [LT σ]

/-- Texts of one length are compared from the front. -/
theorem append_lt_append_iff {a b x y : List σ} (h : a.length = b.length) :
    a ++ x < b ++ y ↔ a < b ∨ a = b ∧ x < y := by
  induction a generalizing b with
  | nil =>
    obtain rfl : b = [] := List.length_eq_zero_iff.mp h.symm
    simp
  | cons c a ih =>
    cases b with
    | nil => simp at h
    | cons d b =>
      have hlen : a.length = b.length := by simpa using h
      simp only [List.cons_append, List.cons_lt_cons_iff, ih hlen, List.cons.injEq]
      constructor
      · rintro (hlt | ⟨rfl, hlt | ⟨rfl, hlt⟩⟩)
        · exact .inl (.inl hlt)
        · exact .inl (.inr ⟨rfl, hlt⟩)
        · exact .inr ⟨⟨rfl, rfl⟩, hlt⟩
      · rintro ((hlt | ⟨rfl, hlt⟩) | ⟨⟨rfl, rfl⟩, hlt⟩)
        · exact .inl hlt
        · exact .inr ⟨rfl, .inl hlt⟩
        · exact .inr ⟨rfl, .inr ⟨rfl, hlt⟩⟩

/-- The codes of the numbers below `bound` have one width, and the order of the numbers. -/
structure Sorts (bound width : Nat) (code : Nat → List σ) : Prop where
  length_eq : ∀ {n}, n < bound → (code n).length = width
  lt_iff : ∀ {n m}, n < bound → m < bound → (code n < code m ↔ n < m)

namespace Sorts

variable {bound b₁ b₂ w₁ w₂ n m : Nat} {code hd tl : Nat → List σ}

/-- Different numbers have different codes. -/
theorem injective [Std.Irrefl (· < · : σ → σ → Prop)] (h : Sorts bound w₁ code) (hn : n < bound)
    (hm : m < bound) (heq : code n = code m) : n = m := by
  have hnm : ¬ n < m := by
    rw [← h.lt_iff hn hm, heq]
    exact List.lt_irrefl _
  have hmn : ¬ m < n := by
    rw [← h.lt_iff hm hn, heq]
    exact List.lt_irrefl _
  omega

/-- Fewer numbers. -/
theorem restrict (h : Sorts bound w₁ code) (hle : b₂ ≤ bound) : Sorts b₂ w₁ code where
  length_eq hn := h.length_eq (by omega)
  lt_iff hn hm := h.lt_iff (by omega) (by omega)

/-- Numbers that are counted from `k` on. -/
theorem shift (h : Sorts bound w₁ code) (k : Nat) (hle : b₂ + k ≤ bound) :
    Sorts b₂ w₁ fun n => code (n + k) where
  length_eq hn := h.length_eq (by omega)
  lt_iff hn hm := by
    rw [h.lt_iff (by omega) (by omega)]
    omega

/-- **Two parts, one behind the other.**  The code of the second part may depend on the
    first. -/
theorem glue [Std.Irrefl (· < · : σ → σ → Prop)] {size quot rem : Nat → Nat} (sep : List σ)
    (tl : Nat → Nat → List σ) (hhd : Sorts b₁ w₁ hd)
    (htl : ∀ q < b₁, Sorts (size q) w₂ (tl q))
    (hquot : ∀ n < bound, quot n < b₁) (hrem : ∀ n < bound, rem n < size (quot n))
    (hlex : ∀ n < bound, ∀ m < bound,
      (n < m ↔ quot n < quot m ∨ quot n = quot m ∧ rem n < rem m)) :
    Sorts bound (w₁ + (sep.length + w₂)) fun n => hd (quot n) ++ (sep ++ tl (quot n) (rem n)) where
  length_eq {n} hn := by
    rw [List.length_append, List.length_append, hhd.length_eq (hquot n hn),
      (htl _ (hquot n hn)).length_eq (hrem n hn)]
  lt_iff {n m} hn hm := by
    have hfront : (hd (quot n)).length = (hd (quot m)).length := by
      rw [hhd.length_eq (hquot n hn), hhd.length_eq (hquot m hm)]
    rw [append_lt_append_iff hfront, hhd.lt_iff (hquot n hn) (hquot m hm), hlex n hn m hm,
      append_lt_append_iff rfl]
    have hsep : ¬ sep < sep := List.lt_irrefl sep
    by_cases heq : quot n = quot m
    · -- the same first part, so the second one decides
      have hrest : tl (quot n) (rem n) < tl (quot m) (rem m) ↔ rem n < rem m := by
        rw [← heq]
        exact (htl _ (hquot n hn)).lt_iff (hrem n hn) (heq ▸ hrem m hm)
      rw [hrest, heq]
      simp [hsep]
    · have hne : hd (quot n) ≠ hd (quot m) := fun h =>
        heq (hhd.injective (hquot n hn) (hquot m hm) h)
      simp [heq, hne]

/-- The order of numbers, by quotient and remainder. -/
theorem lt_iff_div_mod (k n m : Nat) :
    n < m ↔ n / k < m / k ∨ n / k = m / k ∧ n % k < m % k := by
  have hn := Nat.div_add_mod n k
  have hm := Nat.div_add_mod m k
  constructor
  · intro hlt
    have hle : n / k ≤ m / k := Nat.div_le_div_right (Nat.le_of_lt hlt)
    by_cases heq : n / k = m / k
    · rw [heq] at hn
      exact .inr ⟨heq, by omega⟩
    · exact .inl (by omega)
  · rintro (hlt | ⟨heq, hlt⟩)
    · exact Nat.lt_of_div_lt_div hlt
    · rw [heq] at hn
      omega

/-- **The quotient in front of the remainder.** -/
theorem divMod [Std.Irrefl (· < · : σ → σ → Prop)] {k : Nat} (sep : List σ) (hk : 0 < k)
    (hhd : Sorts b₁ w₁ hd) (htl : Sorts k w₂ tl) :
    Sorts (b₁ * k) (w₁ + (sep.length + w₂)) fun n => hd (n / k) ++ (sep ++ tl (n % k)) :=
  glue sep (fun _ => tl) hhd (fun _ _ => htl)
    (fun _ hn => Nat.div_lt_of_lt_mul (by rwa [Nat.mul_comm])) (fun _ _ => Nat.mod_lt _ hk)
    fun n _ m _ => lt_iff_div_mod k n m

end Sorts

/-- The last `w` decimal digits of a number. -/
def digits : Nat → Nat → List Char
  | 0, _ => []
  | w + 1, n => digits w (n / 10) ++ [Nat.digitChar (n % 10)]

@[simp] theorem length_digits (w n : Nat) : (digits w n).length = w := by
  induction w generalizing n with
  | zero => rfl
  | succ w ih => simp [digits, ih]

/-- **Numerals with leading zeros** have the order of the numbers. -/
theorem sorts_digits (w : Nat) : Sorts (10 ^ w) w (digits w) := by
  induction w with
  | zero =>
    constructor
    · intro n hn
      rfl
    · intro n m hn hm
      simp only [digits, List.not_lt_nil, false_iff]
      omega
  | succ w ih =>
    have hone : Sorts 10 1 fun n => [Nat.digitChar n] := by
      constructor
      · intro n hn
        rfl
      · intro n m hn hm
        have hchar : ∀ a < 10, ∀ b < 10, (Nat.digitChar a < Nat.digitChar b ↔ a < b) := by decide
        show [Nat.digitChar n] < [Nat.digitChar m] ↔ n < m
        rw [List.cons_lt_cons_iff, hchar n hn m hm]
        simp
    have hglued := ih.divMod [] (by decide) hone
    rw [← Nat.pow_succ] at hglued
    simpa [digits] using hglued

end SortedText
