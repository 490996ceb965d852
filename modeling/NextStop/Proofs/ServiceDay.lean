import Mathlib.Logic.Function.Iterate
import NextStop.ServiceDay

/-!
# Dates and times of day

A day number is a number of days in the calendar's own sense: `Date.toDays` grows by one from each
date to the next, and different dates have different numbers. With that, the local date and the
local time of day of an instant can be put together again to the instant, in full seconds; both
change at midnight and nowhere else.
-/

namespace NextStop

namespace Date

open Calendar

/-! ## Day after day -/

theorem day_le (d : Date) : d.day ≤ daysInMonth d.year d.month := d.valid.2.2.2

theorem daysInMonth_pos (year : Int) (month : Nat) : 1 ≤ daysInMonth year month := by
  unfold daysInMonth
  split
  · split <;> decide
  · split <;> decide

/-- The date after a date. -/
def tomorrow (d : Date) : Date :=
  if h : d.day < daysInMonth d.year d.month then
    ⟨d.year, d.month, d.day + 1, d.valid.1, d.valid.2.1, Nat.le_add_left 1 d.day, h⟩
  else if h : d.month < 12 then
    ⟨d.year, d.month + 1, 1, Nat.le_add_left 1 d.month, h, Nat.le_refl 1, daysInMonth_pos _ _⟩
  else ⟨d.year + 1, 1, 1, by decide, by decide, Nat.le_refl 1, daysInMonth_pos _ _⟩

/-- The calendar counts the next date as the next day, also over the ends of months and years. -/
theorem toDays_tomorrow (d : Date) : d.tomorrow.toDays = d.toDays + 1 := by
  obtain ⟨hfirst, hlast, -, hday⟩ := d.valid
  unfold tomorrow
  split
  · simp only [toDays]
    omega
  · rename_i hend
    split
    · simp only [toDays, daysBeforeMonth_succ d.year hfirst]
      omega
    · have hmonth : d.month = 12 := by omega
      have hyear := daysBeforeMonth_thirteen d.year
      rw [daysBeforeMonth_succ d.year (by decide)] at hyear
      simp only [toDays, daysBeforeYear_succ, daysBeforeMonth]
      rw [hmonth] at hend hday ⊢
      omega

theorem toDays_iterate_tomorrow (n : Nat) (d : Date) :
    (tomorrow^[n] d).toDays = d.toDays + n := by
  induction n generalizing d with
  | zero => simp
  | succ n ih =>
    rw [Function.iterate_succ_apply, ih, toDays_tomorrow]
    omega

/-! ## One number for every date -/

theorem daysBeforeMonth_mono (year : Int) {m n : Nat} (h : m ≤ n) :
    daysBeforeMonth year m ≤ daysBeforeMonth year n := by
  induction h with
  | refl => exact Nat.le_refl _
  | @step n _ ih =>
    rcases Nat.eq_zero_or_pos n with rfl | hn
    · exact ih
    · rw [daysBeforeMonth_succ year hn]
      omega

theorem daysBeforeYear_mono {y z : Int} (h : y ≤ z) : daysBeforeYear y ≤ daysBeforeYear z := by
  unfold daysBeforeYear
  omega

theorem dayOfYear_le (d : Date) :
    daysBeforeMonth d.year d.month + d.day ≤ daysBeforeMonth d.year (d.month + 1) := by
  rw [daysBeforeMonth_succ d.year d.valid.1]
  exact Nat.add_le_add_left d.day_le _

theorem toDays_lt_of_year_lt {d e : Date} (h : d.year < e.year) : d.toDays < e.toDays := by
  have hday := d.dayOfYear_le
  have hmonth := daysBeforeMonth_mono d.year (Nat.add_le_add_right d.valid.2.1 1)
  have hyear := daysBeforeYear_mono (Int.add_one_le_of_lt h)
  have hlast := e.valid.2.2.1
  rw [daysBeforeMonth_thirteen] at hmonth
  rw [daysBeforeYear_succ] at hyear
  unfold toDays
  omega

theorem toDays_lt_of_month_lt {d e : Date} (hyear : d.year = e.year) (h : d.month < e.month) :
    d.toDays < e.toDays := by
  have hday := d.dayOfYear_le
  have hmonth := daysBeforeMonth_mono d.year (Nat.add_one_le_iff.mpr h)
  have hlast := e.valid.2.2.1
  unfold toDays
  rw [← hyear]
  omega

/-- Different dates have different numbers. -/
theorem toDays_inj {d e : Date} : d.toDays = e.toDays ↔ d = e := by
  refine ⟨fun h => ?_, fun h => h ▸ rfl⟩
  have hyear : d.year = e.year := by
    rcases Int.lt_trichotomy d.year e.year with hlt | heq | hgt
    · have := toDays_lt_of_year_lt hlt
      omega
    · exact heq
    · have := toDays_lt_of_year_lt hgt
      omega
  have hmonth : d.month = e.month := by
    rcases Nat.lt_trichotomy d.month e.month with hlt | heq | hgt
    · have := toDays_lt_of_month_lt hyear hlt
      omega
    · exact heq
    · have := toDays_lt_of_month_lt hyear.symm hgt
      omega
  obtain ⟨y, m, dd, hd⟩ := d
  obtain ⟨y', m', dd', he⟩ := e
  obtain rfl : y = y' := hyear
  obtain rfl : m = m' := hmonth
  obtain rfl : dd = dd' := by
    unfold toDays at h
    dsimp only at h
    omega
  rfl

/-- One date comes a number of days after another one; if the number is negative, it comes before
by as many days. -/
def IsAfter (d : Date) (n : Int) (e : Date) : Prop :=
  tomorrow^[n.toNat] d = tomorrow^[(-n).toNat] e

theorem isAfter_iff {d e : Date} {n : Int} : d.IsAfter n e ↔ e.toDays = d.toDays + n := by
  rw [IsAfter, ← toDays_inj, toDays_iterate_tomorrow, toDays_iterate_tomorrow]
  omega

end Date

namespace ServiceDay

/-! ## Midnight -/

/-- The calendar has a date for the local time of an instant. -/
def Dated (time offset : Int) : Prop :=
  firstDated ≤ localTime time offset ∧ localTime time offset ≤ lastDated
  deriving Decidable

variable {time offset : Int}

theorem dateOf_of_dated (h : Dated time offset) :
    dateOf time offset = Date.ofDays (localTime time offset / 86400000) := if_pos h

theorem toDays_dateOf (h : Dated time offset) :
    (dateOf time offset).toDays = localTime time offset / 86400000 := by
  rw [dateOf_of_dated h, Date.toDays_ofDays]

/-- The date and the time of day make up the local time in full seconds. -/
theorem toDays_dateOf_add_secondOfDay (h : Dated time offset) :
    86400 * (dateOf time offset).toDays + secondOfDay time offset = time / 1000 + offset := by
  rw [toDays_dateOf h, localTime, secondOfDay, secondsPerDay]
  omega

/-- Instants of one local day have one date. -/
theorem dateOf_eq {time' : Int} (h : Dated time offset)
    (hday : localTime time' offset / 86400000 = localTime time offset / 86400000) :
    dateOf time' offset = dateOf time offset := by
  have hdated : Dated time' offset := by
    obtain ⟨hfirst, hlast⟩ := h
    unfold firstDated at hfirst
    unfold lastDated at hlast
    constructor
    · unfold firstDated
      omega
    · unfold lastDated
      omega
  rw [dateOf_of_dated h, dateOf_of_dated hdated, hday]

/-- The start of the bucket of the day that holds an instant. -/
def bucketStart (time offset : Int) (width : Nat) : Int :=
  1000 * (86400 * (dateOf time offset).toDays + bucket (secondOfDay time offset) width - offset)

/-- The date of an instant is as many days after 1970-01-01 as whole days have passed by local time,
its time of day are the seconds since then, and together they are the instant. The bucket of the day
that holds the instant starts on the same date. -/
theorem dateOf_secondOfDay_agree (h : Dated time offset) :
    let days := (dateOf time offset).toDays
    Date.epoch.IsAfter days (dateOf time offset) ∧
      secondOfDay time offset < 86400 ∧
      86400 * days + secondOfDay time offset = time / 1000 + offset ∧
      ∀ width, dateOf (bucketStart time offset width) offset = dateOf time offset := by
  intro days
  refine ⟨?_, secondOfDay_lt time offset, toDays_dateOf_add_secondOfDay h, fun width => ?_⟩
  · have hepoch : Date.epoch.toDays = 0 := by decide
    rw [Date.isAfter_iff, hepoch, Int.zero_add]
  · have hstart := bucket_le (secondOfDay time offset) width
    have hlt := secondOfDay_lt time offset
    have hdays := toDays_dateOf h
    refine dateOf_eq h ?_
    rw [localTime, bucketStart, hdays]
    omega

/-- The last millisecond of a leap day before 1970, at an offset of minus five hours. -/
theorem dateOf_secondOfDay_agree_leapDay :
    let time : Int := -57956400001
    let offset : Int := -18000
    let leapDay : Date := ⟨1968, 2, 29, by decide⟩
    Dated time offset ∧ dateOf time offset = leapDay ∧ Date.epoch.IsAfter (-672) leapDay ∧
      secondOfDay time offset = 86399 ∧ 86400 * (-672) + 86399 = time / 1000 + offset ∧
      bucketStart time offset 180 = -57956580000 ∧
      dateOf (bucketStart time offset 180) offset = leapDay := by
  intro time offset leapDay
  have hdated : Dated time offset := by decide
  have hdate : dateOf time offset = leapDay := by decide +kernel
  have hdays : leapDay.toDays = -672 := by decide +kernel
  have hsecond : secondOfDay time offset = 86399 := by decide
  obtain ⟨hafter, -, hsum, hbucket⟩ := dateOf_secondOfDay_agree hdated
  rw [hdate, hdays] at hafter hsum
  rw [hsecond] at hsum
  exact ⟨hdated, hdate, hafter, hsecond, hsum, by decide +kernel, (hbucket 180).trans hdate⟩

end ServiceDay

end NextStop
