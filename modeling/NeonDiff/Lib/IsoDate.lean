import NeonDiff.Lib.JsText
import Mathlib.Tactic.IntervalCases

/-! # Dates as JavaScript writes and reads them

A time is its milliseconds since the epoch. The calendar is the proleptic Gregorian one, counted in eras
of 400 years that start on the first of March.
-/

namespace NeonDiff.Lib.IsoDate

open NeonDiff.Lib.JsText

/-! ## The calendar -/

structure Civil where
  year : Int
  month : Int
  day : Int
  deriving DecidableEq, Repr

/-- The year of a day of the era: whole centuries, whole cycles of four years, whole years. -/
def yearOfEra (dayOfEra : Int) : Int :=
  let century := min (dayOfEra / 36524) 3
  let cycle := (dayOfEra - 36524 * century) / 1461
  let year := min ((dayOfEra - 36524 * century - 1461 * cycle) / 365) 3
  100 * century + 4 * cycle + year

def yearStart (yearOfEra : Int) : Int := 365 * yearOfEra + yearOfEra / 4 - yearOfEra / 100

def civilOfDays (days : Int) : Civil :=
  let era := (days + 719468) / 146097
  let dayOfEra := (days + 719468) % 146097
  let dayOfYear := dayOfEra - yearStart (yearOfEra dayOfEra)
  let monthFromMarch := (5 * dayOfYear + 2) / 153
  ⟨yearOfEra dayOfEra + 400 * era + (if monthFromMarch < 10 then 0 else 1),
    if monthFromMarch < 10 then monthFromMarch + 3 else monthFromMarch - 9,
    dayOfYear - (153 * monthFromMarch + 2) / 5 + 1⟩

def daysOfCivil (c : Civil) : Int :=
  let year := c.year - (if c.month ≤ 2 then 1 else 0)
  let monthFromMarch := if c.month ≤ 2 then c.month + 9 else c.month - 3
  yearStart (year % 400) + ((153 * monthFromMarch + 2) / 5 + c.day - 1) + 146097 * (year / 400) - 719468

theorem yearStart_eq {century cycle year : Int} (hc : 0 ≤ cycle ∧ cycle ≤ 24) (hy : 0 ≤ year ∧ year ≤ 3) :
    yearStart (100 * century + 4 * cycle + year) = 36524 * century + 1461 * cycle + 365 * year := by
  rw [yearStart, show (100 * century + 4 * cycle + year) / 4 = 25 * century + cycle by omega,
    show (100 * century + 4 * cycle + year) / 100 = century by omega]
  omega

theorem yearOfEra_bounds {doe : Int} (h0 : 0 ≤ doe) (h1 : doe < 146097) :
    (0 ≤ yearOfEra doe ∧ yearOfEra doe < 400) ∧
      0 ≤ doe - yearStart (yearOfEra doe) ∧ doe - yearStart (yearOfEra doe) < 366 := by
  simp only [yearOfEra]
  generalize hcentury : min (doe / 36524) 3 = century
  generalize hcycle : (doe - 36524 * century) / 1461 = cycle
  generalize hyear : min ((doe - 36524 * century - 1461 * cycle) / 365) 3 = year
  have hcycle' : 0 ≤ cycle ∧ cycle ≤ 24 := by omega
  have hyear' : 0 ≤ year ∧ year ≤ 3 := by omega
  rw [yearStart_eq hcycle' hyear']
  omega

theorem dayOfEra_bounds (days : Int) : 0 ≤ (days + 719468) % 146097 ∧ (days + 719468) % 146097 < 146097 := by
  omega

theorem civilOfDays_bounds (days : Int) :
    (1 ≤ (civilOfDays days).month ∧ (civilOfDays days).month ≤ 12) ∧
      1 ≤ (civilOfDays days).day ∧ (civilOfDays days).day ≤ 31 := by
  obtain ⟨h0, h1⟩ := dayOfEra_bounds days
  obtain ⟨-, h⟩ := yearOfEra_bounds h0 h1
  simp only [civilOfDays]
  omega

theorem daysOfCivil_eq {era yoe doy m : Int} (hyear : 0 ≤ yoe ∧ yoe < 400) (hday : 0 ≤ doy ∧ doy < 366)
    (hm : m = (5 * doy + 2) / 153) :
    daysOfCivil ⟨yoe + 400 * era + (if m < 10 then 0 else 1), if m < 10 then m + 3 else m - 9,
      doy - (153 * m + 2) / 5 + 1⟩ = yearStart yoe + doy + 146097 * era - 719468 := by
  have hmod : (yoe + 400 * era) % 400 = yoe := by omega
  have hdiv : (yoe + 400 * era) / 400 = era := by omega
  by_cases h : m < 10
  · have h2 : ¬ m + 3 ≤ 2 := by omega
    simp only [daysOfCivil, h, h2, if_true, if_false, add_zero, sub_zero, hmod, hdiv]
    omega
  · have h2 : m - 9 ≤ 2 := by omega
    simp only [daysOfCivil, h, h2, if_true, if_false, add_sub_cancel_right, hmod, hdiv]
    omega

theorem daysOfCivil_civilOfDays (days : Int) : daysOfCivil (civilOfDays days) = days := by
  obtain ⟨h0, h1⟩ := dayOfEra_bounds days
  obtain ⟨hyear, hday⟩ := yearOfEra_bounds h0 h1
  rw [civilOfDays, daysOfCivil_eq hyear hday rfl]
  omega

/-! ## Digits -/

def digit (k : Nat) : Char := Char.ofNat (48 + k)

/-- The last `w` digits of a number. -/
def pad : Nat → Nat → List Char
  | 0, _ => []
  | w + 1, n => pad w (n / 10) ++ [digit (n % 10)]

theorem digit_value : ∀ k < 10, (digit k).toNat - '0'.toNat = k := by decide

@[simp] theorem length_pad (w n : Nat) : (pad w n).length = w := by
  induction w generalizing n with
  | zero => rfl
  | succ w ih => simp [pad, ih]

theorem digitsValue_concat (cs : List Char) (c : Char) :
    digitsValue (cs ++ [c]) = 10 * digitsValue cs + (c.toNat - '0'.toNat) := by
  simp [digitsValue]

theorem digitsValue_pad {w n : Nat} (h : n < 10 ^ w) : digitsValue (pad w n) = n := by
  induction w generalizing n with
  | zero =>
    obtain rfl : n = 0 := by simpa using h
    rfl
  | succ w ih =>
    rw [pad, digitsValue_concat, ih (by rw [Nat.pow_succ] at h; omega), digit_value _ (Nat.mod_lt _ (by decide))]
    omega

/-! ## Times -/

/-- The time values a `Date` holds. -/
def isTime (t : Int) : Bool := -8640000000000000 ≤ t && t ≤ 8640000000000000

/-- Four digits for the years 0 to 9999, a sign and six digits for the others. -/
def yearText (year : Int) : List Char :=
  if 0 ≤ year ∧ year ≤ 9999 then pad 4 year.toNat
  else (if year < 0 then '-' else '+') :: pad 6 year.natAbs

/-- What follows the year. -/
def restText (month day : Int) (timeOfDay : Int) : List Char :=
  '-' :: (pad 2 month.toNat ++ '-' :: (pad 2 day.toNat ++ 'T' :: (pad 2 (timeOfDay / 3600000).toNat ++
    ':' :: (pad 2 (timeOfDay / 60000 % 60).toNat ++ ':' :: (pad 2 (timeOfDay / 1000 % 60).toNat ++
    '.' :: (pad 3 (timeOfDay % 1000).toNat ++ ['Z']))))))

/-- `new Date(t).toISOString()` of a time value. -/
def toISOString (t : Int) : String :=
  let c := civilOfDays (t / 86400000)
  String.ofList (yearText c.year ++ restText c.month c.day (t % 86400000))

@[simp] theorem length_restText (month day timeOfDay : Int) : (restText month day timeOfDay).length = 20 := by
  simp [restText]

theorem isDigit_of_mem_pad {w n : Nat} {c : Char} (h : c ∈ pad w n) : c.isDigit = true := by
  have hdigit : ∀ k < 10, (digit k).isDigit = true := by decide
  induction w generalizing n with
  | zero => exact absurd h List.not_mem_nil
  | succ w ih =>
    rcases List.mem_append.mp h with h | h
    · exact ih h
    · rw [List.mem_singleton.mp h]
      exact hdigit _ (Nat.mod_lt _ (by decide))

theorem mem_toISOString {t : Int} {c : Char} (h : c ∈ (toISOString t).toList) :
    c.isDigit = true ∨ c ∈ ['-', '+', 'T', ':', '.', 'Z'] := by
  have hyear : ∀ year, ∀ c ∈ yearText year, c.isDigit = true ∨ c ∈ ['-', '+', 'T', ':', '.', 'Z'] := by
    intro year c hc
    unfold yearText at hc
    split at hc
    · exact .inl (isDigit_of_mem_pad hc)
    · rcases List.mem_cons.mp hc with rfl | hc
      · right
        split <;> decide
      · exact .inl (isDigit_of_mem_pad hc)
  rw [toISOString, String.toList_ofList, List.mem_append] at h
  rcases h with h | h
  · exact hyear _ c h
  · simp only [restText, List.mem_cons, List.mem_append, List.not_mem_nil, or_false] at h
    rcases h with rfl | h | rfl | h | rfl | h | rfl | h | rfl | h | rfl | h | rfl
    all_goals first | exact .inl (isDigit_of_mem_pad h) | (right; decide)

/-- A field of `w` digits and the text behind its separator. -/
def readField (w : Nat) (cs : List Char) : Int × List Char := (digitsValue (cs.take w), cs.drop (w + 1))

/-- The year and what follows its separator. -/
def readYear (cs : List Char) : Int × List Char :=
  if cs.length = 24 then readField 4 cs
  else match cs with
    | [] => (0, [])
    | sign :: rest => (if sign = '-' then -(readField 6 rest).1 else (readField 6 rest).1, (readField 6 rest).2)

/-- The time of a text of the shape that `toISOString` writes. -/
def readTime (cs : List Char) : Int :=
  let (year, cs) := readYear cs
  let (month, cs) := readField 2 cs
  let (day, cs) := readField 2 cs
  let (hour, cs) := readField 2 cs
  let (minute, cs) := readField 2 cs
  let (second, cs) := readField 2 cs
  let (milli, _) := readField 3 cs
  86400000 * daysOfCivil ⟨year, month, day⟩ + 3600000 * hour + 60000 * minute + 1000 * second + milli

/-- The time a text of `toISOString` stands for, and nothing for any other text. -/
def parseISOString (s : String) : Option Int :=
  let t := readTime s.toList
  if isTime t ∧ toISOString t = s then some t else none

@[simp] theorem readField_pad {w n : Nat} (h : n < 10 ^ w) (c : Char) (cs : List Char) :
    readField w (pad w n ++ c :: cs) = ((n : Int), cs) := by
  rw [readField, List.take_left' (length_pad w n), digitsValue_pad h, ← List.singleton_append,
    ← List.append_assoc, List.drop_left' (by simp)]

theorem readYear_text {year : Int} (h : -1000000 < year ∧ year < 1000000) (month day timeOfDay : Int) :
    readYear (yearText year ++ restText month day timeOfDay) =
      (year, (restText month day timeOfDay).tail) := by
  have hrest : restText month day timeOfDay = '-' :: (restText month day timeOfDay).tail := rfl
  unfold yearText
  split
  · rename_i hy
    unfold readYear
    rw [if_pos (by simp), hrest, readField_pad (by omega), Int.toNat_of_nonneg hy.1, ← hrest]
  · have hfield : readField 6 (pad 6 year.natAbs ++ restText month day timeOfDay) =
        ((year.natAbs : Int), (restText month day timeOfDay).tail) := by
      rw [hrest, readField_pad (by omega), ← hrest]
    unfold readYear
    rw [if_neg (by simp)]
    simp only [List.cons_append, hfield]
    by_cases hneg : year < 0
    · simp only [hneg, if_true, Prod.mk.injEq, and_true]
      omega
    · simp only [hneg, if_false, Char.reduceEq, Prod.mk.injEq, and_true]
      omega

theorem readTime_toISOString {t : Int} (h : isTime t = true) : readTime (toISOString t).toList = t := by
  have hday := civilOfDays_bounds (t / 86400000)
  have hyear : -1000000 < (civilOfDays (t / 86400000)).year ∧ (civilOfDays (t / 86400000)).year < 1000000 := by
    obtain ⟨h0, h1⟩ := dayOfEra_bounds (t / 86400000)
    have hyoe := (yearOfEra_bounds h0 h1).1
    simp only [isTime, Bool.and_eq_true, decide_eq_true_eq] at h
    simp only [civilOfDays]
    split <;> omega
  generalize hc : civilOfDays (t / 86400000) = c at hday hyear
  have hdays : daysOfCivil c = t / 86400000 := hc ▸ daysOfCivil_civilOfDays _
  rw [toISOString, hc, String.toList_ofList, readTime, readYear_text hyear]
  simp only [restText, List.tail_cons]
  rw [readField_pad (by omega), readField_pad (by omega), readField_pad (by omega), readField_pad (by omega),
    readField_pad (by omega), readField_pad (by omega)]
  have hcivil : (⟨c.year, (c.month.toNat : Int), (c.day.toNat : Int)⟩ : Civil) = c := by
    rw [Int.toNat_of_nonneg (by omega), Int.toNat_of_nonneg (by omega)]
  simp only [hcivil, hdays]
  omega

theorem parseISOString_toISOString {t : Int} (h : isTime t = true) : parseISOString (toISOString t) = some t := by
  rw [parseISOString, readTime_toISOString h]
  exact if_pos ⟨h, rfl⟩

theorem toISOString_ne_empty (t : Int) : toISOString t ≠ "" := by
  intro h
  have := congrArg (fun s => s.toList.length) h
  simp [toISOString] at this

theorem parseISOString_eq_some {s : String} {t : Int} (h : parseISOString s = some t) :
    isTime t = true ∧ toISOString t = s := by
  obtain ⟨ht, heq⟩ := Option.ite_none_right_eq_some.mp h
  exact Option.some.inj heq ▸ ht

/-- `Date.parse`, given how it reads the texts that `toISOString` does not write; nothing stands for `NaN`. -/
def dateParse (legacy : String → Option Int) (s : String) : Option Int :=
  (parseISOString s).or ((legacy s).filter isTime)

theorem dateParse_toISOString (legacy : String → Option Int) {t : Int} (h : isTime t = true) :
    dateParse legacy (toISOString t) = some t := by
  rw [dateParse, parseISOString_toISOString h, Option.some_or]

theorem isTime_of_dateParse {legacy : String → Option Int} {s : String} {t : Int}
    (h : dateParse legacy s = some t) : isTime t = true := by
  rcases Option.or_eq_some_iff.mp h with h | ⟨-, h⟩
  · exact (parseISOString_eq_some h).1
  · exact (Option.filter_eq_some_iff.mp h).2

example : parseISOString "2024-02-29T12:34:56.789Z" = some 1709210096789 := by decide

end NeonDiff.Lib.IsoDate
