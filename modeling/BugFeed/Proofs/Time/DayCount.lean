import BugFeed.Proofs.Time.Calendar

/-!
# Day numbers count days

The day number of a date places years and months by linear formulas. Here it is compared with a
count that knows only how long years and months are (`Date.dayNumber_eq_count`): the days of all
years from year zero on, the days of the earlier months of the year and the earlier days of the
month, less those before 1970.

The years sum up to the day on which the next one begins (`daysOfYears_eq`). The months from March on
sum up to the formula by which they are placed, after the part of the year that a year from March on
has at its end (`daysOfMonths_of_march`), so whether the year has a leap day is said by the sum of
the years alone.
-/

namespace BugFeed

set_option autoImplicit false

def daysInYear (year : Int) : Nat := if isLeapYear year then 366 else 365

/-- The days of some years from year zero on. -/
def daysOfYears : (years : Nat) → Nat
  | 0 => 0
  | years + 1 => daysOfYears years + daysInYear years

/-- The days of the first months of a year. -/
def daysOfMonths (year : Int) : (months : Nat) → Nat
  | 0 => 0
  | months + 1 => daysOfMonths year months + daysInMonth year (months + 1)

/-- The days from the beginning of 1970 to a date that is not before year zero, counted one year, one
month and one day after another. -/
def Date.count (d : Date) : Int :=
  (daysOfYears d.year.toNat + daysOfMonths d.year (d.month - 1) + (d.day - 1) : Nat) -
    (daysOfYears 1970 : Nat)

/-! ## Years -/

theorem isLeapYear_iff (year : Int) :
    isLeapYear year = true ↔ year % 4 = 0 ∧ (year % 100 ≠ 0 ∨ year % 400 = 0) := by
  simp only [isLeapYear, Bool.and_eq_true, Bool.or_eq_true, beq_iff_eq, bne_iff_ne]

/-- The days of some years end where the next year begins: every fourth year has a leap day, but not
every hundredth, except the four hundredth ones. -/
theorem daysOfYears_eq (years : Nat) : (daysOfYears years : Int) = Date.yearStart years + 719528 := by
  induction years with
  | zero => rfl
  | succ years ih =>
      rw [daysOfYears, Nat.cast_add, ih, daysInYear, Nat.cast_succ]
      simp only [Date.yearStart, Date.epochShift]
      by_cases leap : isLeapYear years = true
      · rw [if_pos leap]
        rw [isLeapYear_iff] at leap
        omega
      · rw [if_neg leap]
        rw [isLeapYear_iff] at leap
        omega

theorem daysOfYears_1970 : (daysOfYears 1970 : Int) = 719528 := daysOfYears_eq 1970

/-! ## Months -/

/-- A year has three hundred and thirty-seven days without February. -/
theorem daysInYear_eq (year : Int) : daysInYear year = 337 + daysInMonth year 2 := by
  change (if isLeapYear year then 366 else 365) = 337 + if isLeapYear year then 29 else 28
  split <;> rfl

/-- Before March there are the days of the year without the three hundred and six ones that follow,
and the months from March on are placed by one formula. -/
theorem daysOfMonths_of_march (year : Int) {month : Nat} (low : 3 ≤ month) (high : month ≤ 12) :
    (daysOfMonths year (month - 1) : Int) + 306 =
      daysInYear year + Date.daysBeforeMonth (month - 3) := by
  rw [daysInYear_eq]
  interval_cases month <;> simp [daysOfMonths, daysInMonth, Date.daysBeforeMonth] <;> omega

/-! ## Dates -/

/-- **The day number of a date is the count of its days.** -/
theorem Date.dayNumber_eq_count {d : Date} (valid : d.Valid) (begun : 0 ≤ d.year) :
    d.dayNumber = d.count := by
  obtain ⟨-, -, first, last, day, -⟩ := valid
  obtain ⟨year, hyear⟩ := Int.eq_ofNat_of_zero_le begun
  rw [count, daysOfYears_1970, hyear, Int.toNat_natCast, Nat.cast_add, Nat.cast_add]
  by_cases early : d.month ≤ 2
  · -- January and February end the year that began in March before.
    have years := daysOfYears_eq year
    have months : (daysOfMonths year (d.month - 1) : Int) = 31 * (d.month - 1) := by
      interval_cases d.month <;> rfl
    have placed : daysBeforeMonth (((d.month : Int) + 9) % 12) = 31 * (d.month - 1) + 306 := by
      interval_cases d.month <;> rfl
    rw [dayNumber, if_pos early, hyear, days_of_eras, placed, months]
    simp only [yearStart, epochShift] at *
    omega
  · have months := daysOfMonths_of_march year (Nat.lt_of_not_le early) last
    have years := daysOfYears_eq (year + 1)
    have placed : ((d.month : Int) + 9) % 12 = d.month - 3 := by omega
    rw [daysOfYears, Nat.cast_add, Nat.cast_succ] at years
    rw [dayNumber, if_neg early, hyear, days_of_eras, placed]
    simp only [yearStart, epochShift, Int.add_sub_cancel] at *
    omega

end BugFeed
