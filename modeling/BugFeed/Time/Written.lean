import BugFeed.Time.Instant

/-!
# Date-times in text

A date-time is written as a date, `T`, a time of day and `Z`. Years 0 to 9999 have four digits;
any other year has a sign and at least four. A leap second is written as the second after its
second: as second sixty at the end of a minute, and elsewhere like the ordinary second that follows
it. The short form leaves out the part of the second; the full form has no, three, six or nine
decimal places, the fewest that are exact.
-/

namespace BugFeed.DateTime

set_option autoImplicit false

open Text

def yearText (year : Int) : List Char :=
  if 0 ≤ year ∧ year ≤ 9999 then fixed 4 year.toNat
  else (if year < 0 then '-' else '+') :: padded 4 year.natAbs

def dateText (d : Date) : List Char :=
  yearText d.year ++ '-' :: (fixed 2 d.month ++ '-' :: fixed 2 d.day)

/-- The text of the time of day, to the second. -/
def clockText (t : DateTime) : List Char :=
  let second := t.second % 60 + if t.inLeapSecond then 1 else 0
  fixed 2 (t.second / 3600) ++ ':' :: (fixed 2 (t.second / 60 % 60) ++ ':' :: fixed 2 second)

/-- The decimal places of the second. -/
def fractionText (t : DateTime) : List Char :=
  let nano := t.nano % nanosPerSecond
  if nano = 0 then []
  else if nano % 1000000 = 0 then '.' :: fixed 3 (nano / 1000000)
  else if nano % 1000 = 0 then '.' :: fixed 6 (nano / 1000)
  else '.' :: fixed 9 nano

/-- The second of a date-time in text. -/
def display (t : DateTime) : String :=
  String.ofList (dateText t.date ++ 'T' :: (t.clockText ++ ['Z']))

/-- A date-time in text, to the nanosecond. -/
def displayFull (t : DateTime) : String :=
  String.ofList (dateText t.date ++ 'T' :: (t.clockText ++ (t.fractionText ++ ['Z'])))

/-! ## What a text denotes -/

/-- A date-time that is no instant lies in a leap second within a minute. -/
theorem within_minute {t : DateTime} (unsettled : ¬t.Settled) :
    nanosPerSecond ≤ t.nano ∧ t.second % 60 ≠ 59 := by
  rw [Settled] at unsettled
  omega

theorem succ_second_lt {t : DateTime} (unsettled : ¬t.Settled) : t.second + 1 < secondsPerDay := by
  have within := (within_minute unsettled).2
  have bound := t.second_lt
  simp only [secondsPerDay] at *
  omega

theorem nano_sub_lt (t : DateTime) : t.nano - nanosPerSecond < nanosPerSecond := by
  have bound := t.nano_lt
  simp only [nanosPerSecond] at *
  omega

/-- The instant that the text of a date-time denotes. A leap second within a minute is written like
the ordinary second that follows it, so its text denotes that one. -/
def spelled (t : DateTime) : Instant :=
  if settled : t.Settled then ⟨t, settled⟩
  else
    { day := t.day
      second := t.second + 1
      nano := t.nano - nanosPerSecond
      day_ge := t.day_ge
      day_le := t.day_le
      second_lt := succ_second_lt settled
      nano_lt := Nat.lt_trans t.nano_sub_lt (by decide)
      leap_at_minute_end := fun leap => absurd t.nano_sub_lt (Nat.not_lt.mpr leap) }

end BugFeed.DateTime
