import SmsRelay.ForStd.SortedText

/-!
# Days and dates

The proleptic Gregorian calendar from year 1 to year 9999.  A day is a number, with 0 for
January 1 of year 1; a date is found by going through the years, and then through the months
of the year.  Both are a walk over consecutive pieces of given lengths.

## Key results

- `locate_spec`: the piece in which a position is, and where in it
- `locate_lt_iff`: positions have the lexicographic order of their places
- `dayNumber_dateOf`: a date tells its day
- `dateOf_bounds`: years, months and days are in their ranges
- `sorts_secondText`, `sorts_microText`: the texts of times have the order of the times
- `readMicro_microText`: the text of a time can be read back
-/

namespace Calendar

/-! ## Consecutive pieces -/

/-- Where piece `k` begins, when pieces of the lengths `len 0`, `len 1` and so on follow one
    another. -/
def start (len : Nat → Nat) (k : Nat) : Nat :=
  (List.range k).foldl (fun n i => n + len i) 0

/-- The piece in which the `n`-th position from the beginning of piece `k` is, and its place
    there; at most `fuel` pieces are looked at. -/
def locate (len : Nat → Nat) : (fuel k n : Nat) → Nat × Nat
  | 0, k, n => (k, n)
  | fuel + 1, k, n => if n < len k then (k, n) else locate len fuel (k + 1) (n - len k)

variable {len : Nat → Nat} {fuel k k' n m r r' : Nat}

theorem start_succ : start len (k + 1) = start len k + len k := by
  simp [start, List.range_succ]

theorem start_mono (h : k ≤ k') : start len k ≤ start len k' := by
  induction h with
  | refl => exact Nat.le_refl _
  | step _ ih =>
    rw [start_succ]
    exact Nat.le_trans ih (Nat.le_add_right _ _)

/-- Where a piece begins, when every piece has a least length. -/
theorem le_start {c : Nat} (h : ∀ k, c ≤ len k) : c * k ≤ start len k := by
  induction k with
  | zero => exact Nat.le_refl _
  | succ k ih =>
    have hlen := h k
    rw [start_succ, Nat.mul_succ]
    omega

/-- **The piece of a position**, and where in it the position is. -/
theorem locate_spec (h : start len k + n < start len (k + fuel)) :
    k ≤ (locate len fuel k n).1 ∧ (locate len fuel k n).1 < k + fuel ∧
      (locate len fuel k n).2 < len (locate len fuel k n).1 ∧
      start len (locate len fuel k n).1 + (locate len fuel k n).2 = start len k + n := by
  induction fuel generalizing k n with
  | zero =>
    rw [Nat.add_zero] at h
    omega
  | succ fuel ih =>
    unfold locate
    by_cases hlt : n < len k
    · rw [if_pos hlt]
      exact ⟨Nat.le_refl k, by omega, hlt, rfl⟩
    · rw [if_neg hlt]
      -- the rest of the way, from the next piece on
      have hnext : start len (k + 1) + (n - len k) = start len k + n := by
        rw [start_succ]
        omega
      have hbound : start len (k + 1) + (n - len k) < start len (k + 1 + fuel) := by
        rw [hnext, Nat.add_right_comm]
        exact h
      obtain ⟨hge, hle, hrest, hsum⟩ := ih hbound
      exact ⟨by omega, by omega, hrest, by rw [hsum, hnext]⟩

/-- The piece of a position from the very beginning. -/
theorem locate_zero (h : n < start len fuel) :
    (locate len fuel 0 n).1 < fuel ∧ (locate len fuel 0 n).2 < len (locate len fuel 0 n).1 ∧
      start len (locate len fuel 0 n).1 + (locate len fuel 0 n).2 = n := by
  have hbound : start len 0 + n < start len (0 + fuel) := by
    rw [Nat.zero_add]
    show 0 + n < start len fuel
    omega
  obtain ⟨-, hlt, hrest, hsum⟩ := locate_spec hbound
  have hzero : start len 0 = 0 := rfl
  exact ⟨by omega, hrest, by omega⟩

/-- Positions have the lexicographic order of their places. -/
theorem lt_iff_place (hr : r < len k) (hr' : r' < len k') :
    start len k + r < start len k' + r' ↔ k < k' ∨ k = k' ∧ r < r' := by
  -- a later piece begins behind the end of an earlier one
  have hend : ∀ {a b x : Nat}, a < b → x < len a → start len a + x < start len b := by
    intro a b x hab hx
    have hmono : start len (a + 1) ≤ start len b := start_mono hab
    rw [start_succ] at hmono
    omega
  by_cases hlt : k < k'
  · have hbefore := hend hlt hr
    exact iff_of_true (by omega) (.inl hlt)
  · by_cases heq : k = k'
    · subst heq
      simp
    · have hafter := hend (show k' < k by omega) hr'
      refine iff_of_false (by omega) ?_
      rintro (h | ⟨h, -⟩)
      · exact hlt h
      · exact heq h

/-- The order of positions, by their places. -/
theorem locate_lt_iff (hn : n < start len fuel) (hm : m < start len fuel) :
    n < m ↔ (locate len fuel 0 n).1 < (locate len fuel 0 m).1 ∨
      (locate len fuel 0 n).1 = (locate len fuel 0 m).1 ∧
        (locate len fuel 0 n).2 < (locate len fuel 0 m).2 := by
  obtain ⟨-, hrn, hsumn⟩ := locate_zero hn
  obtain ⟨-, hrm, hsumm⟩ := locate_zero hm
  rw [← lt_iff_place hrn hrm, hsumn, hsumm]

/-! ## The calendar -/

def isLeap (year : Nat) : Bool := year % 4 = 0 && (year % 100 ≠ 0 || year % 400 = 0)

/-- The number of days of a month; months are counted from 0. -/
def monthLength (year month : Nat) : Nat :=
  if month = 1 then if isLeap year then 29 else 28
  else if month ∈ [3, 5, 8, 10] then 30
  else 31

/-- The number of days of the year `index + 1`. -/
def yearLength (index : Nat) : Nat := start (monthLength (index + 1)) 12

/-- The number of days of the calendar. -/
def dayCount : Nat := start yearLength 9999

/-- A date: year, month and day of the month. -/
structure Date where
  year : Nat
  month : Nat
  day : Nat
  deriving DecidableEq, Repr

/-- The date of a day. -/
def dateOf (n : Nat) : Date :=
  let y := locate yearLength 9999 0 n
  let m := locate (monthLength (y.1 + 1)) 12 0 y.2
  ⟨y.1 + 1, m.1 + 1, m.2 + 1⟩

/-- The day of a date. -/
def dayNumber (date : Date) : Nat :=
  start yearLength (date.year - 1) + start (monthLength date.year) (date.month - 1) + (date.day - 1)

theorem yearLength_eq (index : Nat) :
    yearLength index = if isLeap (index + 1) then 366 else 365 := by
  cases h : isLeap (index + 1) <;> simp [yearLength, start, List.range_succ, monthLength, h]

/-- The calendar is long enough for `9999` years without a leap day. -/
theorem le_dayCount : 365 * 9999 ≤ dayCount := by
  apply le_start
  intro index
  rw [yearLength_eq]
  split
  · decide
  · decide

theorem monthLength_le (year month : Nat) : monthLength year month ≤ 31 := by
  unfold monthLength
  repeat' split
  all_goals omega

/-- The year of a day, and the day in it. -/
theorem year_spec (h : n < dayCount) :
    (locate yearLength 9999 0 n).1 < 9999 ∧
      (locate yearLength 9999 0 n).2 < yearLength (locate yearLength 9999 0 n).1 ∧
      start yearLength (locate yearLength 9999 0 n).1 + (locate yearLength 9999 0 n).2 = n :=
  locate_zero h

/-- **A date tells its day.** -/
theorem dayNumber_dateOf (h : n < dayCount) : dayNumber (dateOf n) = n := by
  obtain ⟨-, hrest, hyear⟩ := year_spec h
  obtain ⟨-, -, hmonth⟩ := locate_zero hrest
  unfold dayNumber dateOf
  simp only [Nat.add_sub_cancel]
  rw [Nat.add_assoc, hmonth, hyear]

/-- The parts of a date are in their ranges. -/
theorem dateOf_bounds (h : n < dayCount) :
    (1 ≤ (dateOf n).year ∧ (dateOf n).year ≤ 9999) ∧
      (1 ≤ (dateOf n).month ∧ (dateOf n).month ≤ 12) ∧
      (1 ≤ (dateOf n).day ∧
        (dateOf n).day ≤ monthLength (dateOf n).year ((dateOf n).month - 1)) := by
  obtain ⟨hyear, hrest, -⟩ := year_spec h
  obtain ⟨hmonth, hday, -⟩ := locate_zero hrest
  unfold dateOf
  simp only [Nat.add_sub_cancel]
  omega

-- the day that Unix time is counted from
example : dateOf 719162 = ⟨1970, 1, 1⟩ := by decide +kernel

/-! ## Texts -/

open SortedText

/-- `YYYY-MM-DD` -/
def dateText (date : Date) : List Char :=
  digits 4 date.year ++ (['-'] ++ (digits 2 date.month ++ (['-'] ++ digits 2 date.day)))

/-- `HH:MM:SS`, for a second of the day. -/
def clockText (second : Nat) : List Char :=
  digits 2 (second / 60 / 60) ++ ([':'] ++ digits 2 (second / 60 % 60)) ++
    ([':'] ++ digits 2 (second % 60))

/-- `YYYY-MM-DD HH:MM:SS`, for a number of seconds since the calendar began. -/
def secondText (n : Nat) : List Char :=
  dateText (dateOf (n / 86400)) ++ ([' '] ++ clockText (n % 86400))

/-- `YYYY-MM-DD HH:MM:SS.ffffff`, for a number of microseconds. -/
def microText (n : Nat) : List Char :=
  secondText (n / 1000000) ++ (['.'] ++ digits 6 (n % 1000000))

/-- Dates are sorted by their texts. -/
theorem sorts_dateText : Sorts dayCount 10 fun n => dateText (dateOf n) := by
  have hyear : Sorts 9999 4 fun q => digits 4 (q + 1) := (sorts_digits 4).shift 1 (by decide)
  have hmonth : Sorts 12 2 fun q => digits 2 (q + 1) := (sorts_digits 2).shift 1 (by decide)
  have hday : Sorts 31 2 fun q => digits 2 (q + 1) := (sorts_digits 2).shift 1 (by decide)
  -- within a year, by the month and then by the day
  have hrest : ∀ q < 9999, Sorts (yearLength q) 5 fun n =>
      digits 2 ((locate (monthLength (q + 1)) 12 0 n).1 + 1) ++
        (['-'] ++ digits 2 ((locate (monthLength (q + 1)) 12 0 n).2 + 1)) := by
    intro q _
    apply Sorts.glue ['-'] (fun _ d => digits 2 (d + 1)) hmonth
      (fun m _ => hday.restrict (monthLength_le (q + 1) m))
    · exact fun n hn => (locate_zero hn).1
    · exact fun n hn => (locate_zero hn).2.1
    · exact fun n hn m hm => locate_lt_iff hn hm
  apply Sorts.glue ['-'] (fun q n => digits 2 ((locate (monthLength (q + 1)) 12 0 n).1 + 1) ++
    (['-'] ++ digits 2 ((locate (monthLength (q + 1)) 12 0 n).2 + 1))) hyear hrest
  · exact fun n hn => (year_spec hn).1
  · exact fun n hn => (year_spec hn).2.1
  · exact fun n hn m hm => locate_lt_iff hn hm

/-- Times of a day are sorted by their texts. -/
theorem sorts_clockText : Sorts 86400 8 clockText := by
  have hsixty : Sorts 60 2 (digits 2) := (sorts_digits 2).restrict (by decide)
  have hhour : Sorts 24 2 (digits 2) := (sorts_digits 2).restrict (by decide)
  exact (hhour.divMod [':'] (by decide) hsixty).divMod [':'] (by decide) hsixty

/-- **Seconds are sorted by their texts.** -/
theorem sorts_secondText : Sorts (dayCount * 86400) 19 secondText :=
  sorts_dateText.divMod [' '] (by decide) sorts_clockText

/-- **Microseconds are sorted by their texts.** -/
theorem sorts_microText : Sorts (dayCount * 86400 * 1000000) 26 microText := by
  have hfraction : Sorts 1000000 6 (digits 6) := sorts_digits 6
  exact sorts_secondText.divMod ['.'] (by decide) hfraction

/-- A time is before a whole second when its own second is. -/
theorem microText_lt_secondText {n m : Nat} (hn : n < dayCount * 86400 * 1000000)
    (hm : m < dayCount * 86400) : microText n < secondText m ↔ n / 1000000 < m := by
  have hdiv : n / 1000000 < dayCount * 86400 := by omega
  have hlen : (secondText (n / 1000000)).length = (secondText m).length := by
    rw [sorts_secondText.length_eq hdiv, sorts_secondText.length_eq hm]
  have happ := append_lt_append_iff (x := ['.'] ++ digits 6 (n % 1000000)) (y := []) hlen
  rw [List.append_nil] at happ
  rw [microText, happ, sorts_secondText.lt_iff hdiv hm]
  simp

/-! ## Reading a text -/

/-- The number of a decimal numeral. -/
def number (text : List Char) : Nat := text.foldl (fun n c => n * 10 + (c.toNat - '0'.toNat)) 0

theorem number_digits {w n : Nat} (h : n < 10 ^ w) : number (digits w n) = n := by
  induction w generalizing n with
  | zero =>
    rw [Nat.pow_zero] at h
    obtain rfl : n = 0 := by omega
    rfl
  | succ w ih =>
    have hchar : ∀ d < 10, (Nat.digitChar d).toNat - '0'.toNat = d := by decide
    have hfront : number (digits w (n / 10)) = n / 10 := ih (by rw [Nat.pow_succ] at h; omega)
    unfold number at hfront ⊢
    rw [digits, List.foldl_append, hfront]
    simp only [List.foldl_cons, List.foldl_nil]
    rw [hchar _ (Nat.mod_lt _ (by decide))]
    omega

/-- The `w` characters from position `i` on, as a number. -/
def numberAt (text : List Char) (i w : Nat) : Nat := number ((text.drop i).take w)

/-- The number of microseconds that a text `YYYY-MM-DD HH:MM:SS.ffffff` is for. -/
def readMicro (text : List Char) : Nat :=
  let day := dayNumber ⟨numberAt text 0 4, numberAt text 5 2, numberAt text 8 2⟩
  let second := (numberAt text 11 2 * 60 + numberAt text 14 2) * 60 + numberAt text 17 2
  (day * 86400 + second) * 1000000 + numberAt text 20 6

/-- What is in front of the position is passed over. -/
private theorem numberAt_append {front t : List Char} {i w : Nat} (h : front.length ≤ i) :
    numberAt (front ++ t) i w = numberAt t (i - front.length) w := by
  unfold numberAt
  rw [List.drop_append, List.drop_eq_nil_of_le h, List.nil_append]

/-- A numeral, at its position. -/
private theorem numberAt_digits {t : List Char} {w n : Nat} (h : n < 10 ^ w) :
    numberAt (digits w n ++ t) 0 w = n := by
  have hlen : (digits w n).length = w := length_digits w n
  unfold numberAt
  rw [List.drop_zero, List.take_append_of_le_length (Nat.le_of_eq hlen.symm),
    List.take_of_length_le (Nat.le_of_eq hlen), number_digits h]

/-- The numerals of a text. -/
private theorem readMicro_eq {date : Date} {hour minute second micro : Nat}
    (hdate : date.year < 10 ^ 4 ∧ date.month < 10 ^ 2 ∧ date.day < 10 ^ 2)
    (hclock : hour < 10 ^ 2 ∧ minute < 10 ^ 2 ∧ second < 10 ^ 2) (hmicro : micro < 10 ^ 6) :
    readMicro (dateText date ++ ([' '] ++ (digits 2 hour ++ ([':'] ++ digits 2 minute) ++
      ([':'] ++ digits 2 second))) ++ (['.'] ++ digits 6 micro)) =
      (dayNumber date * 86400 + ((hour * 60 + minute) * 60 + second)) * 1000000 + micro := by
  have hfraction : numberAt (digits 6 micro) 0 6 = micro := by
    have := numberAt_digits (t := []) hmicro
    rwa [List.append_nil] at this
  unfold readMicro dateText
  -- each numeral stands behind fronts of known lengths
  simp only [List.append_assoc, numberAt_append, numberAt_digits, hdate, hclock, hfraction,
    length_digits, List.length_singleton, Nat.reduceLeDiff, Nat.reduceSub]

/-- **The text of a time can be read back.** -/
theorem readMicro_microText {n : Nat} (h : n < dayCount * 86400 * 1000000) :
    readMicro (microText n) = n := by
  have hlt : n / 1000000 / 86400 < dayCount := by
    apply Nat.div_lt_of_lt_mul
    apply Nat.div_lt_of_lt_mul
    rwa [Nat.mul_comm, Nat.mul_comm 86400]
  obtain ⟨⟨-, hyear⟩, ⟨-, hmonth⟩, -, hdom⟩ := dateOf_bounds hlt
  have hdom := Nat.le_trans hdom (monthLength_le _ _)
  have hnumber := dayNumber_dateOf hlt
  have hsecond : n / 1000000 % 86400 < 86400 := Nat.mod_lt _ (by decide)
  rw [microText, secondText, clockText, readMicro_eq ⟨by omega, by omega, by omega⟩
    ⟨by omega, by omega, by omega⟩ (by omega), hnumber]
  omega

end Calendar
