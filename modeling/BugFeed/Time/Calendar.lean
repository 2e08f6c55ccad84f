/-!
# The Gregorian calendar

Dates of the proleptic Gregorian calendar and their day numbers, counted from 1970-01-01. A year
is taken to begin in March, so that the leap day is its last day; four hundred years then hold a
fixed number of days, and the months of a year are placed by one linear formula.
-/

namespace BugFeed

set_option autoImplicit false

/-- A date of the proleptic Gregorian calendar. -/
structure Date where
  year : Int
  month : Nat
  day : Nat
  deriving DecidableEq, Repr

/-- Whether a year has a leap day. -/
def isLeapYear (year : Int) : Bool :=
  year % 4 == 0 && (year % 100 != 0 || year % 400 == 0)

def daysInMonth (year : Int) (month : Nat) : Nat :=
  match month with
  | 2 => if isLeapYear year then 29 else 28
  | 4 | 6 | 9 | 11 => 30
  | _ => 31

namespace Date

/-- The first year of the supported range. -/
def firstYear : Int := -262143

/-- The last year of the supported range. -/
def lastYear : Int := 262142

/-- A date that the calendar has, in a year of the supported range. -/
def Valid (d : Date) : Prop :=
  firstYear ≤ d.year ∧ d.year ≤ lastYear ∧ 1 ≤ d.month ∧ d.month ≤ 12 ∧
    1 ≤ d.day ∧ d.day ≤ daysInMonth d.year d.month

instance (d : Date) : Decidable d.Valid :=
  inferInstanceAs (Decidable (_ ∧ _ ∧ _ ∧ _ ∧ _ ∧ _))

/-- Days from the first of March to the first of the month that follows it by `m`. -/
def daysBeforeMonth (m : Int) : Int := (153 * m + 2) / 5

/-- Days from the start of a four-hundred-year era to the start of its year `y`. -/
def daysBeforeYear (y : Int) : Int := 365 * y + y / 4 - y / 100

/-- Days of four hundred years. -/
def daysPerEra : Int := 146097

/-- The day number of 0000-03-01, negated. -/
def epochShift : Int := 719468

/-- Days from 1970-01-01 to the date, negative before it. -/
def dayNumber (d : Date) : Int :=
  let year := if d.month ≤ 2 then d.year - 1 else d.year
  let month : Int := (d.month + 9) % 12
  (year / 400) * daysPerEra + daysBeforeYear (year % 400) + daysBeforeMonth month
    + (d.day - 1) - epochShift

/-- The date of a day number. -/
def ofDayNumber (n : Int) : Date :=
  let shifted := n + epochShift
  let dayOfEra := shifted % daysPerEra
  let yearOfEra := (dayOfEra - dayOfEra / 1460 + dayOfEra / 36524 - dayOfEra / 146096) / 365
  let dayOfYear := dayOfEra - daysBeforeYear yearOfEra
  let month := (5 * dayOfYear + 2) / 153
  let year := (shifted / daysPerEra) * 400 + yearOfEra
  { year := if month < 10 then year else year + 1
    month := (if month < 10 then month + 3 else month - 9).toNat
    day := (dayOfYear - daysBeforeMonth month + 1).toNat }

end Date

example : (Date.mk 1970 1 1).dayNumber = 0 := by decide
example : Date.ofDayNumber 19782 = ⟨2024, 2, 29⟩ := by decide
example : Date.ofDayNumber (-719529) = ⟨-1, 12, 31⟩ := by decide

end BugFeed
