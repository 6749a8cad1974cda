import Mathlib.Data.List.Basic

/-!
# Templates with holes

A template is a list of fixed texts and holes.  Its skeleton forgets what is in the holes.
When no hole contributes a marked symbol, the marked symbols of the whole are those of the
skeleton, so two fillings of one template have the same ones.

An escaper replaces the symbols of a table.  The replacement of a symbol starts with a
symbol of its own, the *opener*, which the escaper replaces too.

## Key results

- `filter_html`: inert values leave the marked symbols of a template alone
- `markup_eq`: two fillings of one template have the same marked symbols
- `Inert.append`: inert values can be joined
- `inert_escape`: whatever it is given, an escaper makes an inert value of it
-/

namespace Template

variable {α : Type}

/-! ## Escapers -/

section
variable {table : List (α × List α)} {opener : α} {marked v : List α}

/-- `table` gives the replacements; what it does not have stays. -/
def escape [DecidableEq α] (table : List (α × List α)) (s : List α) : List α :=
  s.flatMap fun c => (table.lookup c).getD [c]

/-- A value without marked symbols, in which every opener starts a replacement. -/
structure Inert (table : List (α × List α)) (opener : α) (marked v : List α) : Prop where
  unmarked : ∀ c ∈ marked, c ∉ v
  opens : ∀ pre post, v = pre ++ opener :: post → ∃ e ∈ table.map Prod.snd, e <+: opener :: post

/-- The replacements of a table can be told from the other symbols: they start with the
    opener and have it nowhere else, they have no marked symbol, and every marked symbol
    and the opener are replaced. -/
structure Escaper (table : List (α × List α)) (opener : α) (marked : List α) : Prop where
  replacement : ∀ e ∈ table.map Prod.snd, ∃ w, e = opener :: w ∧ opener ∉ w ∧
    ∀ c ∈ marked, c ∉ e
  marked_mem : ∀ c ∈ marked, c ∈ table.map Prod.fst
  opener_mem : opener ∈ table.map Prod.fst

/-- A value without the symbols in question is inert. -/
theorem inert_of_not_mem (hmarked : ∀ c ∈ marked, c ∉ v) (hopener : opener ∉ v) :
    Inert table opener marked v where
  unmarked := hmarked
  opens pre post hv := absurd (by simp [hv]) hopener

/-- What stands for one symbol is a replacement, or a symbol that needs none. -/
theorem lookup_cases [DecidableEq α] (h : Escaper table opener marked) (c : α) :
    (table.lookup c).getD [c] ∈ table.map Prod.snd ∨
      (table.lookup c).getD [c] = [c] ∧ c ≠ opener ∧ c ∉ marked := by
  cases hlookup : table.lookup c with
  | some e =>
    obtain ⟨l₁, l₂, htable, -⟩ := List.lookup_eq_some_iff.mp hlookup
    exact .inl (by simp [htable])
  | none =>
    -- a symbol of the table has a replacement
    have hkey : c ∉ table.map Prod.fst := by
      intro hmem
      obtain ⟨entry, hentry, rfl⟩ := List.mem_map.mp hmem
      simpa using List.lookup_eq_none_iff.mp hlookup entry hentry
    refine .inr ⟨rfl, fun heq => ?_, fun hmem => hkey (h.marked_mem c hmem)⟩
    exact hkey (heq ▸ h.opener_mem)

/-- Inert values can be joined. -/
theorem Inert.append {w : List α} (hv : Inert table opener marked v)
    (hw : Inert table opener marked w) : Inert table opener marked (v ++ w) := by
  constructor
  · intro c hc hmem
    rcases List.mem_append.mp hmem with hin | hin
    · exact hv.unmarked c hc hin
    · exact hw.unmarked c hc hin
  · intro pre post heq
    rcases List.append_eq_append_iff.mp heq with ⟨u, rfl, hrest⟩ | ⟨u, hfirst, hrest⟩
    · -- the opener is in `w`
      exact hw.opens u post hrest
    · cases u with
      | nil => exact hw.opens [] post (by simpa using hrest.symm)
      | cons a u =>
        -- the opener is in `v`, and so is its replacement
        obtain ⟨rfl, rfl⟩ := List.cons.inj hrest
        obtain ⟨e, he, hprefix⟩ := hv.opens pre u hfirst
        exact ⟨e, he, hprefix.trans (List.prefix_append (opener :: u) w)⟩

/-- A replacement is inert. -/
theorem Escaper.inert (h : Escaper table opener marked) {e : List α}
    (he : e ∈ table.map Prod.snd) : Inert table opener marked e := by
  obtain ⟨w, rfl, hnot, hunmarked⟩ := h.replacement e he
  refine ⟨hunmarked, fun pre post heq => ⟨opener :: w, he, ?_⟩⟩
  -- the opener is its first symbol and no other
  cases pre with
  | nil =>
    rw [heq]
    exact List.prefix_refl _
  | cons b pre =>
    obtain ⟨-, rfl⟩ := List.cons.inj heq
    exact absurd (by simp) hnot

/-- **What an escaper returns is inert.** -/
theorem inert_escape [DecidableEq α] (h : Escaper table opener marked) (s : List α) :
    Inert table opener marked (escape table s) := by
  induction s with
  | nil => exact inert_of_not_mem (by simp [escape]) (by simp [escape])
  | cons x s ih =>
    have hcons : escape table (x :: s) = (table.lookup x).getD [x] ++ escape table s :=
      List.flatMap_cons
    rw [hcons]
    apply Inert.append _ ih
    rcases lookup_cases h x with hreplaced | ⟨hsame, hne, hx⟩
    · exact h.inert hreplaced
    · rw [hsame]
      apply inert_of_not_mem
      · intro c hc hmem
        exact hx (List.mem_singleton.mp hmem ▸ hc)
      · intro hmem
        exact hne (List.mem_singleton.mp hmem).symm

end

/-! ## Templates -/

/-- A piece of a template that has been filled. -/
inductive Piece (α : Type) where
  | text (cs : List α)
  | hole (cs : List α)

/-- The symbols of a piece. -/
def Piece.chars : Piece α → List α
  | .text cs => cs
  | .hole cs => cs

/-- A piece with its hole empty. -/
def Piece.blank : Piece α → Piece α
  | .text cs => .text cs
  | .hole _ => .hole []

/-- What is written. -/
def html (ps : List (Piece α)) : List α := ps.flatMap Piece.chars

/-- The template without what is in its holes. -/
def skeleton (ps : List (Piece α)) : List (Piece α) := ps.map Piece.blank

/-- What is in the holes. -/
def holes (ps : List (Piece α)) : List (List α) :=
  ps.filterMap fun
    | .text _ => none
    | .hole cs => some cs

@[simp] theorem html_cons (p : Piece α) (ps : List (Piece α)) :
    html (p :: ps) = p.chars ++ html ps := List.flatMap_cons

@[simp] theorem skeleton_cons (p : Piece α) (ps : List (Piece α)) :
    skeleton (p :: ps) = p.blank :: skeleton ps := rfl

@[simp] theorem holes_append (ps qs : List (Piece α)) : holes (ps ++ qs) = holes ps ++ holes qs :=
  List.filterMap_append

@[simp] theorem skeleton_append (ps qs : List (Piece α)) :
    skeleton (ps ++ qs) = skeleton ps ++ skeleton qs := List.map_append

/-- A hole of a repeated template is a hole of one of the repetitions. -/
theorem mem_holes_flatMap {β : Type} {l : List β} {f : β → List (Piece α)} {v : List α} :
    v ∈ holes (l.flatMap f) ↔ ∃ b ∈ l, v ∈ holes (f b) := by
  induction l with
  | nil => simp [holes]
  | cons b l ih => simp [ih]

/-- **Values without marked symbols leave those of the template alone.** -/
theorem filter_html {ps : List (Piece α)} {p : α → Bool}
    (h : ∀ v ∈ holes ps, ∀ c ∈ v, p c = false) :
    (html ps).filter p = (html (skeleton ps)).filter p := by
  induction ps with
  | nil => rfl
  | cons x ps ih =>
    rw [html_cons, skeleton_cons, html_cons, List.filter_append, List.filter_append]
    cases x with
    | text cs =>
      rw [ih fun v hv => h v (by simpa [holes] using hv)]
      rfl
    | hole cs =>
      -- nothing of the value passes the filter
      have hnone : cs.filter p = [] :=
        List.filter_eq_nil_iff.mpr fun c hc => by simp [h cs (by simp [holes]) c hc]
      rw [ih fun v hv => h v (by simp [holes] at hv ⊢; exact .inr hv)]
      simp [Piece.chars, Piece.blank, hnone]

/-- **Two fillings of one template** have the same marked symbols, in the same order. -/
theorem markup_eq {ps qs : List (Piece α)} {p : α → Bool} (hsame : skeleton ps = skeleton qs)
    (hps : ∀ v ∈ holes ps, ∀ c ∈ v, p c = false) (hqs : ∀ v ∈ holes qs, ∀ c ∈ v, p c = false) :
    (html ps).filter p = (html qs).filter p := by
  rw [filter_html hps, hsame, ← filter_html hqs]

end Template
