import Mathlib.Data.List.Basic
import SmsRelay.ForStd.PrefixCode

/-!
# Readers

A reader takes a value off the front of a text and leaves the rest.  What a writer has
put together from the codes of the parts, with brackets and separators, is read back by
the reader put together from the readers of the parts.

`token` takes the longest front part whose symbols belong to a word, `readUntil` repeats a
reader up to a terminator, and `readList` reads items with a separator between them.
Both count their turns down, so that they end on every text.

## Key results

- `token_append`: a word is read back up to the symbol behind it
- `readUntil_flatMap`: a repetition is read back
- `readList_intercalate`: a list is read back, with blanks allowed between its parts
-/

namespace Reader

variable {α σ : Type}

/-- A word off the front of a text, with the rest. -/
def token (inWord : σ → Bool) (text : List σ) : List σ × List σ :=
  (text.takeWhile inWord, text.dropWhile inWord)

/-- `rest` does not go on with a symbol of `p`. -/
def Stops (p : σ → Bool) (rest : List σ) : Prop := ∀ c ∈ rest.head?, p c = false

/-- Repeat `unit` up to the terminator `stop`. -/
def readUntil [DecidableEq σ] (stop : σ) (unit : List σ → Option (α × List σ)) :
    Nat → List σ → Option (List α × List σ)
  | 0, _ => none
  | _ + 1, [] => none
  | n + 1, c :: text =>
    if c = stop then some ([], text)
    else (unit (c :: text)).bind fun p =>
      (readUntil stop unit n p.2).map fun q => (p.1 :: q.1, q.2)

/-- The items of a list that has one at least, up to the closing bracket. -/
def readItems [DecidableEq σ] (blank : σ → Bool) (sep close : σ)
    (item : List σ → Option (α × List σ)) : Nat → List σ → Option (List α × List σ)
  | 0, _ => none
  | n + 1, text =>
    (item text).bind fun p =>
      match p.2.dropWhile blank with
      | [] => none
      | c :: rest =>
        if c = close then some ([p.1], rest)
        else if c = sep then
          (readItems blank sep close item n rest).map fun q => (p.1 :: q.1, q.2)
        else none

/-- A list behind its opening bracket. -/
def readList [DecidableEq σ] (blank : σ → Bool) (sep close : σ)
    (item : List σ → Option (α × List σ)) (text : List σ) : Option (List α × List σ) :=
  match text.dropWhile blank with
  | [] => none
  | c :: rest =>
    if c = close then some ([], rest) else readItems blank sep close item text.length text

section
variable {inWord blank : σ → Bool} {w rest : List σ} {c : σ}

theorem Stops.nil (p : σ → Bool) : Stops p [] := fun _ h => by cases h

theorem Stops.cons {p : σ → Bool} (h : p c = false) (rest : List σ) : Stops p (c :: rest) := by
  intro d hd
  obtain rfl : c = d := by simpa using hd
  exact h

theorem Stops.dropWhile_eq {p : σ → Bool} (h : Stops p rest) : rest.dropWhile p = rest := by
  cases rest with
  | nil => rfl
  | cons c rest => simp [h c rfl]

/-- **A word is read back** up to a symbol that does not belong to it. -/
theorem token_append (hw : ∀ c ∈ w, inWord c = true) (hrest : Stops inWord rest) :
    token inWord (w ++ rest) = (w, rest) := by
  have htake : rest.takeWhile inWord = [] := by
    cases rest with
    | nil => rfl
    | cons c rest => simp [hrest c rfl]
  unfold token
  rw [List.takeWhile_append_of_pos hw, List.dropWhile_append_of_pos hw, htake,
    hrest.dropWhile_eq, List.append_nil]

end

section
variable {sep : σ} {code : α → List σ} {as : List α}

/-- A repetition has no more units than symbols. -/
theorem length_le_flatMap (hcode : ∀ a ∈ as, code a ≠ []) :
    as.length ≤ (as.flatMap code).length := by
  induction as with
  | nil => exact Nat.zero_le _
  | cons a as ih =>
    have hpos : 0 < (code a).length := List.length_pos_iff.mpr (hcode a (by simp))
    have hrest := ih fun b hb => hcode b (List.mem_cons_of_mem a hb)
    rw [List.flatMap_cons, List.length_append, List.length_cons]
    omega

/-- A list has no more items than symbols. -/
theorem length_le_intercalate (hcode : ∀ a ∈ as, code a ≠ []) :
    as.length ≤ ([sep].intercalate (as.map code)).length := by
  induction as with
  | nil => exact Nat.zero_le _
  | cons a as ih =>
    have hpos : 0 < (code a).length := List.length_pos_iff.mpr (hcode a (by simp))
    have hrest := ih fun b hb => hcode b (List.mem_cons_of_mem a hb)
    cases as with
    | nil =>
      simp only [List.map_cons, List.map_nil, List.intercalate_singleton, List.length_cons,
        List.length_nil]
      omega
    | cons b as =>
      simp only [List.map_cons, List.intercalate_cons_cons, List.length_append,
        List.length_cons] at hrest ⊢
      omega

/-- An item is not longer than the list. -/
theorem length_item_le {a : α} (ha : a ∈ as) :
    (code a).length ≤ ([sep].intercalate (as.map code)).length := by
  induction as with
  | nil => cases ha
  | cons b as ih =>
    rw [List.map_cons, PrefixCode.IsPrefixCode.intercalate_cons, List.length_append]
    rcases List.mem_cons.mp ha with rfl | ha
    · omega
    · -- the item is one of those behind the first
      obtain ⟨as₁, as₂, rfl⟩ := List.append_of_mem ha
      simp only [List.map_append, List.map_cons, List.flatMap_append, List.flatMap_cons,
        List.length_append]
      omega

end

section
variable [DecidableEq σ] {blank : σ → Bool} {sep close stop : σ} {code : α → List σ}
  {read : List σ → Option (α × List σ)} {as : List α}

/-- **A repetition is read back** up to its terminator, which starts no unit. -/
theorem readUntil_flatMap (hread : ∀ a ∈ as, ∀ rest, read (code a ++ rest) = some (a, rest))
    (hstop : ∀ a, ∃ c cs, code a = c :: cs ∧ c ≠ stop) (rest : List σ) {n : Nat}
    (hn : as.length < n) :
    readUntil stop read n (as.flatMap code ++ stop :: rest) = some (as, rest) := by
  -- One turn for each unit, and one for the terminator
  induction as generalizing n with
  | nil =>
    obtain ⟨n, rfl⟩ : ∃ k, n = k + 1 := ⟨n - 1, by simp at hn; omega⟩
    simp [readUntil]
  | cons a as ih =>
    obtain ⟨n, rfl⟩ : ∃ k, n = k + 1 := ⟨n - 1, by simp at hn; omega⟩
    have hlen : as.length < n := by simpa using hn
    obtain ⟨c, cs, hcode, hne⟩ := hstop a
    have hunit := hread a (by simp) (as.flatMap code ++ stop :: rest)
    rw [hcode, List.cons_append] at hunit
    rw [List.flatMap_cons, hcode, List.append_assoc, List.cons_append, readUntil, if_neg hne,
      hunit, Option.bind_some, ih (fun b hb => hread b (List.mem_cons_of_mem a hb)) hlen]
    rfl

/-- The items of a list that is not empty are read back. -/
private theorem readItems_intercalate (hsep : sep ≠ close) (hblank : blank sep = false)
    (hblank' : blank close = false)
    (hread : ∀ a ∈ as, ∀ c rest, c = sep ∨ c = close →
      read (code a ++ c :: rest) = some (a, c :: rest))
    (hne : as ≠ []) (rest : List σ) {n : Nat} (hn : as.length ≤ n) :
    readItems blank sep close read n ([sep].intercalate (as.map code) ++ close :: rest) =
      some (as, rest) := by
  induction as generalizing n with
  | nil => exact absurd rfl hne
  | cons a as ih =>
    obtain ⟨n, rfl⟩ : ∃ k, n = k + 1 := ⟨n - 1, by simp at hn; omega⟩
    have hlen : as.length ≤ n := by simpa using hn
    cases as with
    | nil =>
      -- the last item stands in front of the bracket
      have hitem := hread a (by simp) close rest (.inr rfl)
      simp [readItems, List.intercalate, hitem, hblank']
    | cons b as =>
      -- another item follows behind a separator
      have hitem := hread a (by simp) sep ([sep].intercalate ((b :: as).map code) ++ close :: rest)
        (.inl rfl)
      have hrest := ih (fun x hx => hread x (List.mem_cons_of_mem a hx)) (by simp) hlen
      have htext : [sep].intercalate ((a :: b :: as).map code) ++ close :: rest =
          code a ++ sep :: ([sep].intercalate ((b :: as).map code) ++ close :: rest) := by
        simp [List.map_cons, List.intercalate_cons_cons]
      rw [htext, readItems, hitem]
      simp only [Option.bind_some, List.dropWhile_cons, hblank, Bool.false_eq_true, if_false,
        if_neg hsep, if_true, hrest, Option.map_some]

/-- **A list is read back** when its items are, in front of a separator and of the closing
    bracket, and start with neither a blank nor that bracket. -/
theorem readList_intercalate (blank : σ → Bool) (hsep : sep ≠ close) (hblank : blank sep = false)
    (hblank' : blank close = false)
    (hread : ∀ a ∈ as, ∀ c rest, c = sep ∨ c = close →
      read (code a ++ c :: rest) = some (a, c :: rest))
    (hstart : ∀ a ∈ as, ∃ c cs, code a = c :: cs ∧ c ≠ close ∧ blank c = false)
    (rest : List σ) :
    readList blank sep close read ([sep].intercalate (as.map code) ++ close :: rest) =
      some (as, rest) := by
  cases as with
  | nil => simp [readList, List.intercalate, hblank']
  | cons a as =>
    -- the first symbol is that of the first item
    obtain ⟨c, cs, hcode, hne, hvisible⟩ := hstart a (by simp)
    obtain ⟨tail, htail⟩ : ∃ tail, [sep].intercalate ((a :: as).map code) ++ close :: rest =
        c :: tail := by
      rw [List.map_cons, PrefixCode.IsPrefixCode.intercalate_cons, hcode]
      exact ⟨_, rfl⟩
    have hlen : (a :: as).length ≤
        ([sep].intercalate ((a :: as).map code) ++ close :: rest).length := by
      have hcodes : ∀ b ∈ a :: as, code b ≠ [] := fun b hb => by
        obtain ⟨d, ds, hd, -⟩ := hstart b hb
        rw [hd]
        exact List.cons_ne_nil d ds
      have hle : (a :: as).length ≤ ([sep].intercalate ((a :: as).map code)).length :=
        length_le_intercalate hcodes
      rw [List.length_append]
      omega
    have hitems := readItems_intercalate hsep hblank hblank' hread (by simp) rest hlen
    rw [htail] at hitems ⊢
    unfold readList
    simp only [List.dropWhile_cons, hvisible, Bool.false_eq_true, if_false, if_neg hne]
    exact hitems

end

end Reader
