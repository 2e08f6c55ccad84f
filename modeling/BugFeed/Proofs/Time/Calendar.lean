import Mathlib.Tactic.IntervalCases
import BugFeed.Time.Calendar

/-!
# Day numbers and dates

Every day number is that of its date (`dayNumber_ofDayNumber`), and its date is one that the
calendar has (`month_ofDayNumber`, `day_ofDayNumber`).

A day of an era lies in a century, a span of four years in it, and a year of this span
(`exists_spans`). From these parts one reads the year off in which the day lies: it has begun by
then, and the day after its three hundred and sixty-fifth one is the leap day of a leap year
(`yearOfEra_spec`). A date lies between the beginning of its year and that of the next one
(`yearStart_le_dayNumber_lt`), so a later day does not lie in an earlier year (`year_mono`).
-/

namespace BugFeed.Date

set_option autoImplicit false

/-! ## Years of an era -/

/-- The year of an era in which a day lies. -/
def yearOfEra (d : Int) : Int := (d - d / 1460 + d / 36524 - d / 146096) / 365

/-- A day of an era but its last lies in a century, in four years of it and in one of these. Only
the last of four years has a leap day, and the last four years of a century have none. -/
theorem exists_spans {d : Int} (low : 0 ≤ d) (high : d < 146096) :
    ∃ c q r k : Int, d = 36524 * c + 1461 * q + 365 * r + k ∧ (0 ≤ c ∧ c ≤ 3) ∧
      (0 ≤ q ∧ q ≤ 24) ∧ (0 ≤ r ∧ r ≤ 3) ∧ (0 ≤ k ∧ k ≤ 365) ∧ (k = 365 → r = 3 ∧ q < 24) := by
  have hday : 0 ≤ d % 36524 % 1461 ∧ d % 36524 % 1461 < 1461 := by omega
  refine ⟨d / 36524, d % 36524 / 1461, min (d % 36524 % 1461 / 365) 3,
    d % 36524 % 1461 - 365 * min (d % 36524 % 1461 / 365) 3, ?_, ?_, ?_, ?_, ?_, ?_⟩
  all_goals omega

theorem yearOfEra_of_spans {d c q r k : Int} (hd : d = 36524 * c + 1461 * q + 365 * r + k)
    (hc : 0 ≤ c ∧ c ≤ 3) (hq : 0 ≤ q ∧ q ≤ 24) (hr : 0 ≤ r ∧ r ≤ 3) (hk : 0 ≤ k ∧ k ≤ 365)
    (last : k = 365 → r = 3 ∧ q < 24) : yearOfEra d = 100 * c + 4 * q + r := by
  have century : d / 36524 = c := by omega
  have era : d / 146096 = 0 := by omega
  rw [yearOfEra, century, era]
  omega

/-- A day of an era lies in its year: the year has begun, and its last day is the three hundred and
sixty-fifth one, or the leap day before the next year begins. -/
theorem yearOfEra_spec {d : Int} (low : 0 ≤ d) (high : d < daysPerEra) :
    (0 ≤ yearOfEra d ∧ yearOfEra d < 400) ∧
      (0 ≤ d - daysBeforeYear (yearOfEra d) ∧ d - daysBeforeYear (yearOfEra d) ≤ 365) ∧
      (d - daysBeforeYear (yearOfEra d) = 365 → (yearOfEra d + 1) % 4 = 0 ∧
        ((yearOfEra d + 1) % 100 ≠ 0 ∨ (yearOfEra d + 1) % 400 = 0)) := by
  simp only [daysPerEra] at high
  by_cases end_ : d = 146096
  · subst end_
    decide
  · obtain ⟨c, q, r, k, hd, hc, hq, hr, hk, last⟩ := exists_spans low (by omega)
    have year := yearOfEra_of_spans hd hc hq hr hk last
    have leapDays : (100 * c + 4 * q + r) / 4 = 25 * c + q := by omega
    have centuries : (100 * c + 4 * q + r) / 100 = c := by omega
    have begun : daysBeforeYear (yearOfEra d) = 36524 * c + 1461 * q + 365 * r := by
      rw [year, daysBeforeYear, leapDays, centuries]
      omega
    rw [begun, year]
    omega

/-! ## Dates of days -/

/-- The day of its era on which a day number lies. -/
def dayOfEra (n : Int) : Int := (n + epochShift) % daysPerEra

/-- The day of its year on which a day number lies, where a year begins in March. -/
def dayOfYear (n : Int) : Int := dayOfEra n - daysBeforeYear (yearOfEra (dayOfEra n))

/-- The month of its year in which a day number lies, where a year begins in March. -/
def monthOfYear (n : Int) : Int := (5 * dayOfYear n + 2) / 153

/-- The year in which a day number lies, where a year begins in March. -/
def yearFromMarch (n : Int) : Int := (n + epochShift) / daysPerEra * 400 + yearOfEra (dayOfEra n)

theorem ofDayNumber_year (n : Int) :
    (ofDayNumber n).year = if monthOfYear n < 10 then yearFromMarch n else yearFromMarch n + 1 :=
  rfl

theorem ofDayNumber_month (n : Int) :
    (ofDayNumber n).month =
      (if monthOfYear n < 10 then monthOfYear n + 3 else monthOfYear n - 9).toNat := rfl

theorem ofDayNumber_day (n : Int) :
    (ofDayNumber n).day = (dayOfYear n - daysBeforeMonth (monthOfYear n) + 1).toNat := rfl

theorem dayOfEra_bounds (n : Int) : 0 ≤ dayOfEra n ∧ dayOfEra n < daysPerEra := by
  simp only [dayOfEra, daysPerEra]
  omega

theorem dayOfYear_bounds (n : Int) : 0 ≤ dayOfYear n ∧ dayOfYear n ≤ 365 :=
  (yearOfEra_spec (dayOfEra_bounds n).1 (dayOfEra_bounds n).2).2.1

theorem monthOfYear_bounds (n : Int) : 0 ≤ monthOfYear n ∧ monthOfYear n ≤ 11 := by
  have hday := dayOfYear_bounds n
  simp only [monthOfYear]
  omega

/-- A day lies in its month. -/
theorem daysBeforeMonth_le (n : Int) : daysBeforeMonth (monthOfYear n) ≤ dayOfYear n := by
  simp only [daysBeforeMonth, monthOfYear]
  omega

/-- The month of a date is one of the twelve. -/
theorem month_ofDayNumber (n : Int) :
    1 ≤ (ofDayNumber n).month ∧ (ofDayNumber n).month ≤ 12 := by
  have hmonth := monthOfYear_bounds n
  rw [ofDayNumber_month]
  split <;> omega

/-- **A day number is that of its date.** -/
theorem dayNumber_ofDayNumber (n : Int) : (ofDayNumber n).dayNumber = n := by
  have hmonth := monthOfYear_bounds n
  have hday := daysBeforeMonth_le n
  obtain ⟨low, high⟩ := dayOfEra_bounds n
  have hyear := (yearOfEra_spec low high).1
  have year : (if (ofDayNumber n).month ≤ 2 then (ofDayNumber n).year - 1
      else (ofDayNumber n).year) = yearFromMarch n := by
    rw [ofDayNumber_month, ofDayNumber_year]
    by_cases early : monthOfYear n < 10
    · rw [if_pos early, if_pos early, if_neg (by omega)]
    · rw [if_neg early, if_neg early, if_pos (by omega)]
      omega
  have month : (((ofDayNumber n).month : Int) + 9) % 12 = monthOfYear n := by
    rw [ofDayNumber_month]
    split <;> omega
  have day : ((ofDayNumber n).day : Int) - 1 = dayOfYear n - daysBeforeMonth (monthOfYear n) := by
    rw [ofDayNumber_day]
    omega
  have era : yearFromMarch n / 400 = (n + epochShift) / daysPerEra := by
    rw [yearFromMarch]
    omega
  have inEra : yearFromMarch n % 400 = yearOfEra (dayOfEra n) := by
    rw [yearFromMarch]
    omega
  have split : (n + epochShift) / daysPerEra * daysPerEra + dayOfEra n = n + epochShift :=
    Int.ediv_mul_add_emod _ _
  have inYear : daysBeforeYear (yearOfEra (dayOfEra n)) + dayOfYear n = dayOfEra n := by
    rw [dayOfYear]
    omega
  rw [dayNumber, year, era, inEra, day, month]
  omega

/-- A leap day is reached only in a leap year. -/
theorem isLeapYear_of_last_day {n : Int} (last : dayOfYear n = 365) :
    isLeapYear (yearFromMarch n + 1) = true := by
  obtain ⟨low, high⟩ := dayOfEra_bounds n
  obtain ⟨fourth, century⟩ := (yearOfEra_spec low high).2.2 last
  simp only [isLeapYear, yearFromMarch, Bool.and_eq_true, Bool.or_eq_true, beq_iff_eq, bne_iff_ne]
  omega

theorem daysInMonth_le (year : Int) (month : Nat) : daysInMonth year month ≤ 31 := by
  simp only [daysInMonth]
  split
  · split <;> omega
  · omega
  · omega
  · omega
  · omega
  · omega

/-- The day of a date is one that its month has. -/
theorem day_ofDayNumber (n : Int) :
    1 ≤ (ofDayNumber n).day ∧
      (ofDayNumber n).day ≤ daysInMonth (ofDayNumber n).year (ofDayNumber n).month := by
  have hday := daysBeforeMonth_le n
  obtain ⟨low, high⟩ := dayOfYear_bounds n
  obtain ⟨first, last⟩ := monthOfYear_bounds n
  have next : dayOfYear n < daysBeforeMonth (monthOfYear n + 1) := by
    simp only [daysBeforeMonth, monthOfYear]
    omega
  have leap := isLeapYear_of_last_day (n := n)
  rw [ofDayNumber_day, ofDayNumber_month, ofDayNumber_year]
  refine ⟨by omega, ?_⟩
  generalize monthOfYear n = m at *
  by_cases february : m = 11
  · subst february
    simp only [daysBeforeMonth] at *
    change _ ≤ if isLeapYear (yearFromMarch n + 1) = true then 29 else 28
    split
    · omega
    · have short : dayOfYear n ≠ 365 := fun last => absurd (leap last) ‹_›
      omega
  · have early : m ≤ 10 := by omega
    clear last leap
    interval_cases m <;> simp only [daysBeforeMonth] at hday next ⊢ <;>
      simp [daysInMonth] <;> omega

/-- The date of a day is one that the calendar has, if its year is in the supported range. -/
theorem valid_ofDayNumber {n : Int} (first : firstYear ≤ (ofDayNumber n).year)
    (last : (ofDayNumber n).year ≤ lastYear) : (ofDayNumber n).Valid :=
  ⟨first, last, (month_ofDayNumber n).1, (month_ofDayNumber n).2, (day_ofDayNumber n).1,
    (day_ofDayNumber n).2⟩

/-! ## Years of days -/

/-- The days of the eras before a year and of the years before it in its era. -/
theorem days_of_eras (year : Int) : year / 400 * daysPerEra + daysBeforeYear (year % 400) =
    365 * year + year / 4 - year / 100 + year / 400 := by
  simp only [daysPerEra, daysBeforeYear]
  omega

/-- The day number of the beginning of a year, which is ten months into the year that began in March
before. -/
def yearStart (year : Int) : Int :=
  365 * (year - 1) + (year - 1) / 4 - (year - 1) / 100 + (year - 1) / 400 + 306 - epochShift

theorem yearStart_mono {a b : Int} (le : a ≤ b) : yearStart a ≤ yearStart b := by
  simp only [yearStart]
  omega

/-- A date lies between the beginning of its year and that of the next one. -/
theorem yearStart_le_dayNumber_lt {d : Date} (first : 1 ≤ d.month) (last : d.month ≤ 12)
    (day : 1 ≤ d.day) (inside : d.day ≤ daysInMonth d.year d.month) :
    yearStart d.year ≤ d.dayNumber ∧ d.dayNumber < yearStart (d.year + 1) := by
  have short := Nat.le_trans inside (daysInMonth_le _ _)
  rw [dayNumber, days_of_eras]
  simp only [yearStart, daysBeforeMonth]
  by_cases early : d.month ≤ 2
  · have placed : ((d.month : Int) + 9) % 12 = d.month + 9 := by omega
    rw [if_pos early, placed]
    omega
  · have placed : ((d.month : Int) + 9) % 12 = d.month - 3 := by omega
    rw [if_neg early, placed]
    omega

/-- A day lies in the year of its date. -/
theorem yearStart_le_lt (n : Int) :
    yearStart (ofDayNumber n).year ≤ n ∧ n < yearStart ((ofDayNumber n).year + 1) := by
  obtain ⟨first, last⟩ := month_ofDayNumber n
  obtain ⟨day, inside⟩ := day_ofDayNumber n
  have between := yearStart_le_dayNumber_lt first last day inside
  rwa [dayNumber_ofDayNumber] at between

/-- The days of the years 0 to 9999. -/
theorem dayNumber_bounds {d : Date} (valid : d.Valid) (begun : 0 ≤ d.year)
    (written : d.year ≤ 9999) : -719528 ≤ d.dayNumber ∧ d.dayNumber < 2932897 := by
  obtain ⟨-, -, first, last, day, inside⟩ := valid
  obtain ⟨low, high⟩ := yearStart_le_dayNumber_lt first last day inside
  exact ⟨Int.le_trans (yearStart_mono begun) low,
    Int.lt_of_lt_of_le high (yearStart_mono (Int.add_le_add_right written 1))⟩

/-- A later day does not lie in an earlier year. -/
theorem year_mono {n m : Int} (le : n ≤ m) : (ofDayNumber n).year ≤ (ofDayNumber m).year := by
  by_contra later
  have begun := (yearStart_le_lt n).1
  have ended := (yearStart_le_lt m).2
  have between := yearStart_mono (Int.add_one_le_of_lt (Int.not_le.mp later))
  omega

/-- The supported days are those of the supported years. -/
theorem year_bounds {n : Int} (low : -96465292 ≤ n) (high : n ≤ 95026236) :
    firstYear ≤ (ofDayNumber n).year ∧ (ofDayNumber n).year ≤ lastYear :=
  ⟨Int.le_trans (by decide) (year_mono low), Int.le_trans (year_mono high) (by decide)⟩

/-- A day in a year before 10000 comes before its first day. -/
theorem lt_of_year_le {n : Int} (h : (ofDayNumber n).year ≤ 9999) : n < 2932897 := by
  by_contra late
  have later := year_mono (Int.not_lt.mp late)
  exact absurd (Int.le_trans later h) (by decide)

end BugFeed.Date
