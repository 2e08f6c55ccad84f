import BugFeed.Proofs.Time.DayCount
import BugFeed.Proofs.Time.Order
import BugFeed.Proofs.Time.Relaxed

/-!
# Spellings of an instant

A token spells a date, a time of day and an offset from universal time (`Spelling`). The date has a
year of four digits, the second may have up to nine decimal places, and the offset is a letter for
universal time or a sign with hours and minutes. What the spelling denotes is said without reading
it: the seconds since the epoch by the count of days, the time of day and the offset, and the
nanoseconds by the decimal places.

Each part of the text is read with what it was written for, whatever part comes behind it
(`clock_text`, `offset_text`). The offset moves the instant by less than a day, so it stays in the
supported range, also before year zero and after year 9999, and the token is read as the instant
that it denotes (`read_text`). Instants outside leap seconds are ordered by their seconds and
nanoseconds alone, so versions are ordered as the moments are that their tokens denote, under
whatever offsets they are spelled (`ResourceVersion.spellings_denote`).
-/

namespace BugFeed.Rfc3339

set_option autoImplicit false

open Text

/-! ## Parts of a spelling -/

/-- The decimal places of a second: how many there are, and the number that their digits write. -/
structure Places where
  width : Nat
  digits : Nat
  positive : 0 < width
  width_le : width ≤ 9
  digits_lt : digits < 10 ^ width

def Places.text (p : Places) : List Char := '.' :: fixed p.width p.digits

/-- The part of the second that decimal places write, in nanoseconds. -/
def Places.nanos (p : Places) : Nat := p.digits * 10 ^ (9 - p.width)

/-- An offset from universal time. -/
inductive Zone where
  /-- A letter for universal time itself. -/
  | universal (letter : Char)
  /-- A sign, hours and minutes. -/
  | offset (sign : Char) (hours minutes : Nat)

namespace Zone

/-- Universal time is `Z` or `z`. A sign is a plus or one of two minus signs, and an offset is shorter
than a day. -/
def Valid : Zone → Prop
  | universal letter => letter = 'Z' ∨ letter = 'z'
  | offset sign hours minutes =>
      (sign = '+' ∨ sign = '-' ∨ sign = minusSign) ∧ hours ≤ 23 ∧ minutes ≤ 59

def text : Zone → List Char
  | universal letter => [letter]
  | offset sign hours minutes => sign :: (fixed 2 hours ++ ':' :: fixed 2 minutes)

/-- Seconds by which a clock with the offset is ahead of universal time. -/
def seconds : Zone → Int
  | universal _ => 0
  | offset sign hours minutes =>
      if sign = '+' then (hours * 3600 + minutes * 60 : Nat)
      else -(hours * 3600 + minutes * 60 : Nat)

end Zone

/-- A date and a time of day with an offset from universal time, as a token spells them. -/
structure Spelling where
  date : Date
  separator : Char
  hour : Nat
  minute : Nat
  second : Nat
  places : Option Places
  zone : Zone
  date_valid : date.Valid
  year_ge : 0 ≤ date.year
  year_le : date.year ≤ 9999
  separator_eq : separator = 'T' ∨ separator = 't' ∨ separator = ' '
  hour_lt : hour < 24
  minute_lt : minute < 60
  second_lt : second < 60
  zone_valid : zone.Valid

namespace Spelling

def fraction (s : Spelling) : List Char := (s.places.map Places.text).getD []

def clockText (s : Spelling) : List Char :=
  fixed 2 s.hour ++ ':' :: (fixed 2 s.minute ++ ':' :: (fixed 2 s.second ++ s.fraction))

def text (s : Spelling) : String :=
  String.ofList (DateTime.dateText s.date ++ s.separator :: (s.clockText ++ s.zone.text))

/-- The second of the day that the clock shows. -/
def clockSeconds (s : Spelling) : Nat := s.hour * 3600 + s.minute * 60 + s.second

/-- Seconds from the epoch to the second that the spelling denotes. -/
def seconds (s : Spelling) : Int := s.date.count * 86400 + s.clockSeconds - s.zone.seconds

/-- Nanoseconds into that second. -/
def nanos (s : Spelling) : Nat := (s.places.map Places.nanos).getD 0

/-- Nanoseconds from the epoch to the moment that the spelling denotes. -/
def moment (s : Spelling) : Int := s.seconds * 1000000000 + s.nanos

/-- Half past two in the afternoon, at an offset of two hours from universal time. -/
instance : Inhabited Spelling where
  default := {
    date := ⟨2024, 3, 1⟩
    separator := 'T'
    hour := 14
    minute := 30
    second := 45
    places := some ⟨3, 250, by decide, by decide, by decide⟩
    zone := .offset '+' 2 0
    date_valid := by decide
    year_ge := by decide
    year_le := by decide
    separator_eq := .inl rfl
    hour_lt := by decide
    minute_lt := by decide
    second_lt := by decide
    zone_valid := ⟨.inl rfl, by decide, by decide⟩ }

example : (default : Spelling).text = "2024-03-01T14:30:45.250+02:00" := by decide

end Spelling

/-! ## Reading the parts -/

theorem Places.nanos_lt (p : Places) : p.nanos < nanosPerSecond := by
  have whole : 10 ^ p.width * 10 ^ (9 - p.width) = nanosPerSecond := by
    rw [← Nat.pow_add, Nat.add_sub_cancel' p.width_le]
    rfl
  rw [nanos, ← whole]
  exact Nat.mul_lt_mul_of_pos_right p.digits_lt (Nat.pow_pos (by decide))

/-- An offset begins with a character that neither is a digit nor begins decimal places. -/
theorem Zone.exists_text_cons {z : Zone} (valid : z.Valid) :
    ∃ c rest, z.text = c :: rest ∧ c.isDigit = false ∧ c ≠ '.' := by
  cases z with
  | universal letter =>
      rcases valid with rfl | rfl <;> exact ⟨_, _, rfl, by decide, by decide⟩
  | offset sign hours minutes =>
      rcases valid.1 with rfl | rfl | rfl <;> exact ⟨_, _, rfl, by decide, by decide⟩

theorem two_le_bytesOfTwo (c d : Char) (cs : List Char) : 2 ≤ bytesOfTwo (c :: d :: cs) := by
  have hc := Char.utf8Size_pos c
  have hd := Char.utf8Size_pos d
  simp only [bytesOfTwo, List.take_succ_cons, List.take_zero, List.foldr_cons, List.foldr_nil]
  omega

/-- Hours and minutes of an offset are read back. -/
theorem offsetFields_fixed {hours minutes : Nat} (hhours : hours ≤ 23) (hminutes : minutes ≤ 59) :
    offsetFields colon (fixed 2 hours ++ ':' :: fixed 2 minutes) =
      .ok (hours * 3600 + minutes * 60, []) := by
  have before : ¬bytesOfTwo (fixed 2 hours ++ ':' :: fixed 2 minutes) < 2 :=
    Nat.not_lt.mpr (two_le_bytesOfTwo _ _ _)
  have after : ¬bytesOfTwo (fixed 2 minutes ++ []) < 2 := Nat.not_lt.mpr (two_le_bytesOfTwo _ _ _)
  have read := number_fixed (by omega : minutes < 10 ^ 2) []
  rw [List.append_nil] at after read
  rw [offsetFields]
  simp only [if_neg before, number_fixed (by omega : hours < 10 ^ 2), colon, if_true, if_neg after,
    read, if_pos (by omega : minutes < 60), bind, Except.bind, pure, Except.pure]

/-- An offset is read with its seconds. -/
theorem offset_text {z : Zone} (valid : z.Valid) : offset colon z.text = .ok (z.seconds, []) := by
  cases z with
  | universal letter =>
      rcases valid with rfl | rfl <;> rfl
  | offset sign hours minutes =>
      obtain ⟨signed, hhours, hminutes⟩ := valid
      have fields := offsetFields_fixed hhours hminutes
      rcases signed with rfl | rfl | rfl <;>
        simp [Zone.text, Zone.seconds, offset, fields, bind, Except.bind, pure, Except.pure,
          minusSign]

theorem Zone.seconds_lt {z : Zone} (valid : z.Valid) : z.seconds.natAbs < secondsPerDay := by
  cases z with
  | universal letter => exact (by decide : 0 < secondsPerDay)
  | offset sign hours minutes =>
      obtain ⟨-, hhours, hminutes⟩ := valid
      simp only [seconds, secondsPerDay]
      split <;> omega

namespace Spelling

theorem nanos_lt (s : Spelling) : s.nanos < nanosPerSecond := by
  rw [nanos]
  cases s.places with
  | none => exact (by decide : 0 < nanosPerSecond)
  | some p => exact p.nanos_lt

/-- A second is a whole one, or its decimal places are its nanoseconds. -/
theorem fraction_cases (s : Spelling) : (s.fraction = [] ∧ s.nanos = 0) ∨
    ∃ p : Places, s.fraction = p.text ∧ s.nanos = p.nanos := by
  rw [fraction, nanos]
  cases s.places with
  | none => exact .inl ⟨rfl, rfl⟩
  | some p => exact .inr ⟨p, rfl, rfl⟩

/-- A time of day is read with its second and its nanoseconds, up to the offset behind it. -/
theorem clock_text (s : Spelling) :
    clock (s.clockText ++ s.zone.text) = .ok (⟨s.clockSeconds, s.nanos⟩, s.zone.text) := by
  obtain ⟨c, rest, zone, apart, pointless⟩ := Zone.exists_text_cons s.zone_valid
  have hhour := s.hour_lt
  have hminute := s.minute_lt
  have hsecond := s.second_lt
  have fields : Clock.ofFields? s.hour s.minute s.second s.nanos =
      some ⟨s.clockSeconds, s.nanos⟩ := by
    rw [Clock.ofFields?, if_pos (by omega), if_neg (by omega)]
    rfl
  rw [clock, clockText, zone]
  simp only [List.append_assoc, List.cons_append, number_fixed (by omega : s.hour < 10 ^ 2),
    number_fixed (by omega : s.minute < 10 ^ 2), number_fixed (by omega : s.second < 10 ^ 2), mark,
    bind, Except.bind, beq_self_eq_true, if_true]
  rcases s.fraction_cases with ⟨without, whole⟩ | ⟨p, written, parts⟩
  · rw [without, List.nil_append]
    rw [whole] at fields ⊢
    split
    · rename_i point
      exact absurd (List.cons.inj point).1 pointless
    · simp only [pure, Except.pure, fields]
  · rw [written, Places.text, List.cons_append]
    rw [parts] at fields ⊢
    have read : nanoseconds (fixed p.width p.digits ++ c :: rest) = .ok (p.nanos, c :: rest) :=
      Relaxed.nanoseconds_fixed p.positive p.width_le p.digits_lt apart rest
    simp only [read, fields, pure, Except.pure]

theorem shortest_le_text (s : Spelling) : shortest ≤ s.text.utf8ByteSize := by
  obtain ⟨c, rest, zone, -⟩ := Zone.exists_text_cons s.zone_valid
  have bytes := length_le_utf8ByteSize
    (DateTime.dateText s.date ++ s.separator :: (s.clockText ++ s.zone.text))
  rw [DateTime.dateText, DateTime.yearText, if_pos ⟨s.year_ge, s.year_le⟩, clockText, zone] at bytes
  simp only [List.length_append, List.length_cons, length_fixed] at bytes
  rw [text, DateTime.dateText, DateTime.yearText, if_pos ⟨s.year_ge, s.year_le⟩, clockText, zone]
  exact Nat.le_trans (by simp only [shortest]; omega) bytes

/-- The offset moves an instant of the years 0 to 9999 by less than a day, so it stays in the
supported range. -/
theorem exists_ofLocal (s : Spelling) :
    ∃ t, Instant.ofLocal? s.date s.clockSeconds s.nanos s.zone.seconds = some t ∧
      t.unixSeconds = s.seconds ∧ t.nano = s.nanos := by
  have count := Date.dayNumber_eq_count s.date_valid s.year_ge
  obtain ⟨low, high⟩ := Date.dayNumber_bounds s.date_valid s.year_ge s.year_le
  have offset := Zone.seconds_lt s.zone_valid
  have hhour := s.hour_lt
  have hminute := s.minute_lt
  have hsecond := s.second_lt
  have seconds : s.date.dayNumber * secondsPerDay + s.clockSeconds - s.zone.seconds = s.seconds := by
    rw [count]
    rfl
  have inRange : -96465292 * 86400 ≤ s.seconds ∧ s.seconds < (95026236 + 1) * 86400 := by
    rw [← seconds]
    simp only [secondsPerDay, clockSeconds] at *
    omega
  rw [Instant.ofLocal?, seconds]
  obtain ⟨t, inside⟩ := Instant.exists_ofUnixSeconds s.nanos_lt inRange.1 inRange.2
  exact ⟨t, inside, Instant.ofUnixSeconds?_eq_some inside⟩

/-- **A spelling is read as the instant that it denotes.** -/
theorem read_text (s : Spelling) :
    ∃ t, read s.text = .ok t ∧ t.unixSeconds = s.seconds ∧ t.nano = s.nanos := by
  obtain ⟨t, inside, denoted⟩ := s.exists_ofLocal
  have long := Nat.not_lt.mpr s.shortest_le_text
  have short := Nat.not_le.mpr (Zone.seconds_lt s.zone_valid)
  have separated : (s.separator == 'T' || s.separator == 't' || s.separator == ' ') = true := by
    rcases s.separator_eq with same | same | same <;> rw [same] <;> rfl
  refine ⟨t, ?_, denoted⟩
  rw [read, if_neg long, text, String.toList_ofList]
  simp only [date_dateText s.date_valid s.year_ge s.year_le, mark, separated, if_true, clock_text,
    offset_text s.zone_valid, List.isEmpty_nil, Bool.not_true, if_neg short, inside, bind,
    Except.bind, pure, Except.pure, Bool.false_eq_true, if_false]

end Spelling

end BugFeed.Rfc3339

namespace BugFeed

/-- Outside leap seconds the order of instants is that of their nanoseconds since the epoch. -/
theorem Instant.le_iff_of_ordinary {a b : Instant} (ha : a.nano < nanosPerSecond)
    (hb : b.nano < nanosPerSecond) :
    a ≤ b ↔ a.unixSeconds * 1000000000 + a.nano ≤ b.unixSeconds * 1000000000 + b.nano := by
  change a.rank ≤ b.rank ↔ _
  rw [DateTime.rank_eq, DateTime.rank_eq]
  simp only [nanosPerSecond] at *
  omega

namespace ResourceVersion

open Rfc3339 (Spelling)

theorem parse_spelling (s : Spelling) :
    ∃ v, parse s.text = .ok v ∧ v.time.unixSeconds = s.seconds ∧ v.time.nano = s.nanos := by
  obtain ⟨t, accepted, denoted⟩ := s.read_text
  exact ⟨⟨t⟩, parse_of_read accepted, denoted⟩

/-- Versions of spellings are ordered as the moments that the spellings denote. -/
theorem le_iff_moment_le {s r : Spelling} {v w : ResourceVersion}
    (hv : v.time.unixSeconds = s.seconds ∧ v.time.nano = s.nanos)
    (hw : w.time.unixSeconds = r.seconds ∧ w.time.nano = r.nanos) :
    v.time ≤ w.time ↔ s.moment ≤ r.moment := by
  have ordinary : v.time.nano < nanosPerSecond := hv.2 ▸ s.nanos_lt
  have ordinary' : w.time.nano < nanosPerSecond := hw.2 ▸ r.nanos_lt
  rw [Instant.le_iff_of_ordinary ordinary ordinary', hv.1, hv.2, hw.1, hw.2]
  rfl

/-- **A token denotes the right instant, however it is spelled.** Every spelling of a date in the
years 0 to 9999 with a time of day and an offset is accepted, and denotes the instant whose second
is given by the count of days, the time of day and the offset, with the decimal places as its
nanoseconds. Of two spellings the versions are the same if the moments are the same that they
denote, under whatever offsets, and otherwise they are ordered as these moments are. -/
theorem spellings_denote (s r : Spelling) :
    ∃ v w, parse s.text = .ok v ∧ parse r.text = .ok w ∧
      (v.time.unixSeconds = s.seconds ∧ v.time.nano = s.nanos) ∧
      (v = w ↔ s.moment = r.moment) ∧ (v.isAfter w = true ↔ r.moment < s.moment) ∧
      (v.time ≤ w.time ↔ s.moment ≤ r.moment) := by
  obtain ⟨v, first, hv⟩ := parse_spelling s
  obtain ⟨w, second, hw⟩ := parse_spelling r
  have upTo := le_iff_moment_le hv hw
  have downTo := le_iff_moment_le hw hv
  refine ⟨v, w, first, second, hv, ?_, ?_, upTo⟩
  · constructor
    · rintro rfl
      exact Int.le_antisymm (upTo.mp (le_refl _)) (downTo.mp (le_refl _))
    · intro same
      have time : v.time = w.time := le_antisymm (upTo.mpr (Int.le_of_eq same))
        (downTo.mpr (Int.le_of_eq same.symm))
      exact congrArg mk time
  · rw [isAfter_iff, ← not_le, upTo, Int.not_le]

end ResourceVersion

end BugFeed
