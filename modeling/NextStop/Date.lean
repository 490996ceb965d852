import Std.Data.TreeMap

/-!
# Calendar dates

Dates of the Gregorian calendar, extended over all years in both directions. `Date.toDays`
counts the days from 1970-01-01 as the calendar does: whole years, whole months, days.
`Date.ofDays` finds the date of a day number, and `Date.toDays_ofDays` says that it is the one
with that number.
-/

namespace NextStop

namespace Calendar

/-- Every fourth year is a leap year, of the full centuries only every fourth. -/
def isLeap (year : Int) : Bool := year % 4 == 0 && (year % 100 != 0 || year % 400 == 0)

/-- The length of a month, the months being numbered from one. -/
def daysInMonth (year : Int) (month : Nat) : Nat :=
  if month == 2 then (if isLeap year then 29 else 28)
  else if month == 4 || month == 6 || month == 9 || month == 11 then 30
  else 31

/-- The length of a year. -/
def daysInYear (year : Int) : Nat := if isLeap year then 366 else 365

/-- The number of days from 1970-01-01 to the first day of a year. -/
def daysBeforeYear (year : Int) : Int :=
  365 * (year - 1970) + (year - 1) / 4 - (year - 1) / 100 + (year - 1) / 400 - 477

/-- The number of days of a year before the first day of a month. -/
def daysBeforeMonth (year : Int) : Nat → Nat
  | 0 => 0
  | 1 => 0
  | month + 2 => daysBeforeMonth year (month + 1) + daysInMonth year (month + 1)

/-- The year that holds the day with a given number. Four hundred years have 146097 days, so
the year found from that mean is off by at most one. -/
def yearOfDays (n : Int) : Int :=
  let guess := 1970 + n * 400 / 146097
  if n < daysBeforeYear guess then guess - 1
  else if daysBeforeYear (guess + 1) ≤ n then guess + 1
  else guess

theorem daysBeforeYear_succ (year : Int) :
    daysBeforeYear (year + 1) = daysBeforeYear year + daysInYear year := by
  unfold daysBeforeYear daysInYear isLeap
  by_cases h4 : year % 4 = 0 <;> by_cases h100 : year % 100 = 0 <;>
    by_cases h400 : year % 400 = 0 <;> simp [h4, h100, h400] <;> omega

theorem daysBeforeYear_yearOfDays_le (n : Int) : daysBeforeYear (yearOfDays n) ≤ n := by
  simp only [yearOfDays]
  split
  · unfold daysBeforeYear at *; omega
  · split <;> omega

theorem lt_daysBeforeYear_yearOfDays_succ (n : Int) :
    n < daysBeforeYear (yearOfDays n + 1) := by
  simp only [yearOfDays]
  split
  · simpa using ‹_›
  · split
    · unfold daysBeforeYear at *; omega
    · omega

end Calendar

/-- A date of the calendar. -/
structure Date where
  year : Int
  /-- The month, January being one. -/
  month : Nat
  /-- The day of the month, the first being one. -/
  day : Nat
  valid : 1 ≤ month ∧ month ≤ 12 ∧ 1 ≤ day ∧ day ≤ Calendar.daysInMonth year month
  deriving DecidableEq

namespace Date

open Calendar

/-- The date with the given parts, if the calendar has it. -/
def ofParts? (year : Int) (month day : Nat) : Option Date :=
  if h : 1 ≤ month ∧ month ≤ 12 ∧ 1 ≤ day ∧ day ≤ daysInMonth year month then
    some ⟨year, month, day, h⟩
  else none

/-- Dates are ordered by year, month and day. -/
instance : Ord Date where
  compare := compareLex (compareOn Date.year)
    (compareLex (compareOn Date.month) (compareOn Date.day))

instance : Std.TransOrd Date :=
  inferInstanceAs (Std.TransCmp (compareLex (compareOn Date.year)
    (compareLex (compareOn Date.month) (compareOn Date.day))))

instance : Std.LawfulEqOrd Date where
  eq_of_compare {a b} h := by
    replace h : compareLex (compareOn Date.year)
      (compareLex (compareOn Date.month) (compareOn Date.day)) a b = .eq := h
    simp only [compareLex_eq_eq, compareOn, Std.LawfulEqCmp.compare_eq_iff_eq] at h
    cases a; cases b
    simp_all

/-- 1970-01-01. -/
def epoch : Date := ⟨1970, 1, 1, by decide⟩

instance : Inhabited Date := ⟨epoch⟩

/-- The number of days from 1970-01-01 to the date, negative before it. -/
def toDays (d : Date) : Int :=
  daysBeforeYear d.year + daysBeforeMonth d.year d.month + d.day - 1

/-! ## The date of a day number -/

/-- The month and day of a day of the year, the first day being zero: the days of the months
from `month` on are taken off as long as they fit. The last month takes what is left. -/
def monthAndDay (year : Int) : (month rest fuel : Nat) → Nat × Nat
  | month, rest, 0 => (month, rest + 1)
  | month, rest, fuel + 1 =>
    if rest < daysInMonth year month then (month, rest + 1)
    else monthAndDay year (month + 1) (rest - daysInMonth year month) fuel

theorem daysBeforeMonth_succ (year : Int) {month : Nat} (h : 1 ≤ month) :
    daysBeforeMonth year (month + 1) = daysBeforeMonth year month + daysInMonth year month := by
  obtain ⟨m, rfl⟩ : ∃ m, month = m + 1 := ⟨month - 1, by omega⟩
  rfl

theorem daysBeforeMonth_thirteen (year : Int) : daysBeforeMonth year 13 = daysInYear year := by
  simp [daysBeforeMonth, daysInMonth, daysInYear]
  split <;> rfl

/-- The month found lies in the year, the day in the month, and both together count the days
that were given. -/
theorem monthAndDay_valid (year : Int) (month rest fuel : Nat) (lo : 1 ≤ month)
    (hi : month + fuel = 12) (h : daysBeforeMonth year month + rest < daysInYear year) :
    1 ≤ (monthAndDay year month rest fuel).1 ∧ (monthAndDay year month rest fuel).1 ≤ 12 ∧
      1 ≤ (monthAndDay year month rest fuel).2 ∧
      (monthAndDay year month rest fuel).2 ≤
        daysInMonth year (monthAndDay year month rest fuel).1 ∧
      daysBeforeMonth year (monthAndDay year month rest fuel).1 +
        (monthAndDay year month rest fuel).2 = daysBeforeMonth year month + rest + 1 := by
  induction fuel generalizing month rest with
  | zero =>
    obtain rfl : month = 12 := by omega
    have h13 : daysBeforeMonth year 12 + daysInMonth year 12 = daysInYear year :=
      daysBeforeMonth_thirteen year
    simp only [monthAndDay]
    omega
  | succ fuel ih =>
    unfold monthAndDay
    split
    · dsimp only; omega
    · have hs := daysBeforeMonth_succ year lo
      have := ih (month + 1) (rest - daysInMonth year month) (by omega) (by omega) (by omega)
      omega

private theorem dayOfYear_lt (n : Int) :
    daysBeforeMonth (yearOfDays n) 1 + (n - daysBeforeYear (yearOfDays n)).toNat <
      daysInYear (yearOfDays n) := by
  have lo := daysBeforeYear_yearOfDays_le n
  have hi := lt_daysBeforeYear_yearOfDays_succ n
  rw [daysBeforeYear_succ] at hi
  simp only [daysBeforeMonth]
  omega

/-- The date that is `n` days after 1970-01-01. -/
def ofDays (n : Int) : Date :=
  let year := yearOfDays n
  let rest := (n - daysBeforeYear year).toNat
  ⟨year, (monthAndDay year 1 rest 11).1, (monthAndDay year 1 rest 11).2, by
    have := monthAndDay_valid year 1 rest 11 (by omega) (by omega) (dayOfYear_lt n)
    omega⟩

theorem toDays_ofDays (n : Int) : (ofDays n).toDays = n := by
  have h := monthAndDay_valid (yearOfDays n) 1 (n - daysBeforeYear (yearOfDays n)).toNat 11
    (by omega) (by omega) (dayOfYear_lt n)
  have lo := daysBeforeYear_yearOfDays_le n
  simp only [daysBeforeMonth] at h
  simp only [toDays, ofDays]
  omega

end Date

end NextStop
