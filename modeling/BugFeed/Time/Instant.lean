import BugFeed.Time.Calendar
import BugFeed.Time.Span

/-!
# Instants

A date-time is a day, a second of that day and the nanoseconds into that second. A second may be
followed by a leap second, which is counted as its second billion of nanoseconds; so date-times are
ordered by day, then second, then nanosecond, and a leap second lies between its second and the
next.

In a date-time every second can be followed by a leap second. Texts know leap seconds only as second
sixty, after the last second of a minute, and so do clocks. An instant is a date-time that they can
tell of: it lies in no leap second but at the end of a minute. Instants are what tokens and answers
denote, and what a clock shows.

Cutting a date-time to whole seconds keeps a leap second one. Adding a length to an instant inside
a leap second leaves it there while there is room; otherwise every second added is an ordinary
one, because where other leap seconds lie is not known.
-/

namespace BugFeed

set_option autoImplicit false

/-- Seconds of a day. -/
def secondsPerDay : Nat := 86400

/-- Nanoseconds of a second. -/
def nanosPerSecond : Nat := 1000000000

/-- A time in universal time, to the nanosecond. -/
structure DateTime where
  day : Int
  second : Nat
  nano : Nat
  day_ge : -96465292 ≤ day
  day_le : day ≤ 95026236
  second_lt : second < secondsPerDay
  nano_lt : nano < 2 * nanosPerSecond
  deriving DecidableEq, Repr

/-- A date-time that lies in no leap second but one at the end of a minute. -/
structure Instant extends DateTime where
  leap_at_minute_end : nanosPerSecond ≤ nano → second % 60 = 59
  deriving DecidableEq, Repr

namespace DateTime

/-- The first supported day is the first day of the first supported year. -/
example : (Date.mk Date.firstYear 1 1).dayNumber = -96465292 := by decide

/-- The last supported day is the last day of the last supported year. -/
example : (Date.mk Date.lastYear 12 31).dayNumber = 95026236 := by decide

/-! ## Order -/

/-- A number that grows with the date-time: it leaves room for a leap second after every second. -/
def rank (t : DateTime) : Int :=
  (t.day * secondsPerDay + t.second) * (2 * nanosPerSecond) + t.nano

instance : LT DateTime := ⟨fun a b => a.rank < b.rank⟩

instance : LE DateTime := ⟨fun a b => a.rank ≤ b.rank⟩

instance (a b : DateTime) : Decidable (a < b) := inferInstanceAs (Decidable (a.rank < b.rank))

instance (a b : DateTime) : Decidable (a ≤ b) := inferInstanceAs (Decidable (a.rank ≤ b.rank))

/-- Date-times of the same rank are the same. -/
theorem eq_of_rank_eq {a b : DateTime} (h : a.rank = b.rank) : a = b := by
  have ha := a.second_lt
  have hb := b.second_lt
  have ka := a.nano_lt
  have kb := b.nano_lt
  simp only [rank, secondsPerDay, nanosPerSecond] at h ha hb ka kb
  have hd : a.day = b.day := by omega
  have hs : a.second = b.second := by omega
  have hn : a.nano = b.nano := by omega
  cases a
  cases b
  simp_all

/-! ## Whole seconds -/

/-- Seconds since the epoch; a leap second counts as the second before it. -/
def unixSeconds (t : DateTime) : Int := t.day * secondsPerDay + t.second

/-- Whether the date-time lies in a leap second. -/
def inLeapSecond (t : DateTime) : Bool := nanosPerSecond ≤ t.nano

/-- The beginning of the second that the date-time lies in. -/
def truncate (t : DateTime) : DateTime where
  day := t.day
  second := t.second
  nano := if nanosPerSecond ≤ t.nano then nanosPerSecond else 0
  day_ge := t.day_ge
  day_le := t.day_le
  second_lt := t.second_lt
  nano_lt := by split <;> simp [nanosPerSecond]

def date (t : DateTime) : Date := Date.ofDayNumber t.day

/-- A leap second that the date-time lies in is one at the end of a minute, so it is an instant. -/
def Settled (t : DateTime) : Prop := nanosPerSecond ≤ t.nano → t.second % 60 = 59

instance (t : DateTime) : Decidable t.Settled :=
  inferInstanceAs (Decidable (nanosPerSecond ≤ t.nano → t.second % 60 = 59))

end DateTime

namespace Instant

/-- The instant at a day, second and nanosecond, if it is one. -/
def make? (day : Int) (second nano : Nat) : Option Instant :=
  if h : (-96465292 ≤ day ∧ day ≤ 95026236) ∧ second < secondsPerDay ∧
      nano < 2 * nanosPerSecond ∧ (nanosPerSecond ≤ nano → second % 60 = 59) then
    some ⟨⟨day, second, nano, h.1.1, h.1.2, h.2.1, h.2.2.1⟩, h.2.2.2⟩
  else none

/-- The beginning of 1970. -/
def epoch : Instant where
  day := 0
  second := 0
  nano := 0
  day_ge := by decide
  day_le := by decide
  second_lt := by decide
  nano_lt := by decide
  leap_at_minute_end := by decide

instance : Inhabited Instant := ⟨epoch⟩

instance : LT Instant := ⟨fun a b => a.toDateTime < b.toDateTime⟩

instance : LE Instant := ⟨fun a b => a.toDateTime ≤ b.toDateTime⟩

instance (a b : Instant) : Decidable (a < b) :=
  inferInstanceAs (Decidable (a.toDateTime < b.toDateTime))

instance (a b : Instant) : Decidable (a ≤ b) :=
  inferInstanceAs (Decidable (a.toDateTime ≤ b.toDateTime))

def latest (a b : Instant) : Instant := if a ≤ b then b else a

theorem toDateTime_inj {a b : Instant} : a.toDateTime = b.toDateTime ↔ a = b := by
  cases a
  cases b
  simp

/-- The beginning of the second that the instant lies in. -/
def truncate (t : Instant) : Instant where
  toDateTime := t.toDateTime.truncate
  leap_at_minute_end := by
    intro h
    change nanosPerSecond ≤ (if nanosPerSecond ≤ t.nano then nanosPerSecond else 0) at h
    split at h
    · exact t.leap_at_minute_end ‹_›
    · exact absurd h (by decide)

/-- The instant at a number of seconds since the epoch and a nanosecond, if it is one. -/
def ofUnixSeconds? (seconds : Int) (nano : Nat) : Option Instant :=
  make? (seconds / secondsPerDay) (seconds % secondsPerDay).toNat nano

end Instant

/-- The beginning of the ordinary second after the one that the date-time lies in. -/
def DateTime.nextSecond? (t : DateTime) : Option Instant :=
  Instant.ofUnixSeconds? (t.unixSeconds + 1) 0

namespace Instant

/-! ## Arithmetic -/

/-- The longest length that can be added, in nanoseconds: as many milliseconds as a signed
64-bit number counts. -/
def longestNanos : Nat := (UInt64.size / 2 - 1) * 1000000

/-- The instant a length later, if the length and the result are in range. -/
def add? (t : Instant) (s : Span) : Option Instant :=
  if longestNanos < s.toNanos then none
  else if nanosPerSecond ≤ t.nano ∧ s.seconds = 0 ∧ t.nano + s.nanos < 2 * nanosPerSecond then
    make? t.day t.second (t.nano + s.nanos)
  else
    let nano := t.nano % nanosPerSecond + s.nanos
    ofUnixSeconds? (t.unixSeconds + s.seconds + (nano / nanosPerSecond : Nat))
      (nano % nanosPerSecond)

/-- The instant a part of a second earlier, if it is in range. -/
def earlier? (t : Instant) (part : Nat) : Option Instant :=
  if part ≤ t.nano then make? t.day t.second (t.nano - part)
  else ofUnixSeconds? (t.unixSeconds - 1) (t.nano + nanosPerSecond - part)

/-- Nanoseconds from `present` to the instant, negative if it has passed. -/
def nanosAfter (t present : Instant) : Int :=
  (t.unixSeconds - present.unixSeconds) * nanosPerSecond + t.nano - present.nano

/-- Nanoseconds from `present` to the instant, zero if it has passed. -/
def nanosFrom (t present : Instant) : Nat := (t.nanosAfter present).toNat

/-- The time from `present` to the instant in nanoseconds, if it is not too long. -/
def since? (t present : Instant) : Option Int :=
  if (t.nanosAfter present).natAbs ≤ longestNanos then some (t.nanosAfter present) else none

/-- The instant that a clock shows as the given date and time at an offset from universal time,
in seconds. -/
def ofLocal? (date : Date) (secondOfDay nano : Nat) (offset : Int) : Option Instant :=
  ofUnixSeconds? (date.dayNumber * secondsPerDay + secondOfDay - offset) nano

end Instant

end BugFeed
