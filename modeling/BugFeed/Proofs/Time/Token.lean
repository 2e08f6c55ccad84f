import BugFeed.Proofs.Time.Calendar
import BugFeed.ResourceVersion

/-!
# Tokens are read back

The token of a version in the years 0 to 9999 is read as the beginning of the version's second
(`ResourceVersion.parse_display`). Each part of the text is read back with any text behind it: a
number of fixed width (`number_fixed`), a date (`date_dateText`) and a time of day
(`clock_clockText`), where second sixty is read as the leap second that it was written for.

The year of any other version has a sign, which the strict form does not allow: its token is refused
(`ResourceVersion.parse_display_of_signed`).

The text of a date-time is that of the instant that it denotes (`DateTime.display_spelled`), so that
the same is known of date-times that are no instants.
-/

namespace BugFeed

set_option autoImplicit false

open Text

/-- Every character of a text takes a byte at least. -/
theorem length_le_utf8ByteSize (cs : List Char) : cs.length ≤ (String.ofList cs).utf8ByteSize := by
  induction cs with
  | nil => exact Nat.zero_le _
  | cons c cs ih =>
      have hc := Char.utf8Size_pos c
      rw [String.ofList_cons, String.utf8ByteSize_append, String.utf8ByteSize_singleton,
        List.length_cons]
      omega

/-- A number has at least the digits that it is filled up to. -/
theorem le_length_padded {width : Nat} (positive : 0 < width) (n : Nat) :
    width ≤ (padded width n).length := by
  rw [padded]
  split
  · rw [length_fixed]
  · rename_i large
    by_contra short
    refine large ((Nat.length_toDigits_le_iff (by decide) positive).mp ?_)
    omega

namespace Rfc3339

theorem number_fixed {width n : Nat} (h : n < 10 ^ width) (rest : List Char) :
    number width (fixed width n ++ rest) = .ok (n, rest) := by
  have whole : n % Nat.pow 10 width = n := Nat.mod_eq_of_lt h
  rw [number, readFixed_fixed, whole]

/-- The text of a date is read back. -/
theorem date_dateText {d : Date} (valid : d.Valid) (low : 0 ≤ d.year) (high : d.year ≤ 9999)
    (rest : List Char) : date (DateTime.dateText d ++ rest) = .ok (d, rest) := by
  have year : d.year.toNat < 10 ^ 4 := by omega
  have hmonth : d.month < 10 ^ 2 := by
    have := valid.2.2.2.1
    omega
  have hday : d.day < 10 ^ 2 := by
    have hle := valid.2.2.2.2.2
    have short := Date.daysInMonth_le d.year d.month
    omega
  have same : (⟨(d.year.toNat : Int), d.month, d.day⟩ : Date) = d := by
    rw [Int.toNat_of_nonneg low]
  rw [date, DateTime.dateText, DateTime.yearText, if_pos ⟨low, high⟩]
  simp only [List.append_assoc, List.cons_append, number_fixed year, number_fixed hmonth,
    number_fixed hday, mark, bind, Except.bind, beq_self_eq_true, if_true, same, if_pos valid]
  rfl

/-- The fields of a time of day make up its second, and a leap second is sixty. -/
theorem ofFields_second (t : Instant) (nano : Nat) :
    Clock.ofFields? (t.second / 3600) (t.second / 60 % 60)
      (t.second % 60 + if t.inLeapSecond then 1 else 0) nano =
        some ⟨t.second, nano + if t.inLeapSecond then nanosPerSecond else 0⟩ := by
  have hsecond := t.second_lt
  simp only [secondsPerDay] at hsecond
  have parts : t.second / 3600 * 3600 + t.second / 60 % 60 * 60 + t.second % 60 = t.second := by
    omega
  simp only [DateTime.inLeapSecond, decide_eq_true_eq]
  by_cases leap : nanosPerSecond ≤ t.nano
  · have last := t.leap_at_minute_end leap
    rw [if_pos leap, if_pos leap, Clock.ofFields?, if_pos (by omega), if_pos (by omega)]
    rw [last] at parts
    rw [parts]
  · rw [if_neg leap, if_neg leap, Clock.ofFields?, if_pos (by omega), if_neg (by omega),
      Nat.add_zero, Nat.add_zero, parts]

/-- The fields of a time of day make up the beginning of its second. -/
theorem ofFields_clock (t : Instant) :
    Clock.ofFields? (t.second / 3600) (t.second / 60 % 60)
      (t.second % 60 + if t.inLeapSecond then 1 else 0) 0 = some ⟨t.second, t.truncate.nano⟩ := by
  rw [ofFields_second, Nat.zero_add]
  simp only [DateTime.inLeapSecond, decide_eq_true_eq]
  rfl

/-- The text of a time of day is read back at the beginning of its second. -/
theorem clock_clockText (t : Instant) (rest : List Char) :
    clock (t.clockText ++ 'Z' :: rest) =
      .ok (⟨t.second, t.truncate.nano⟩, 'Z' :: rest) := by
  have hsecond := t.second_lt
  simp only [secondsPerDay] at hsecond
  have hour : t.second / 3600 < 10 ^ 2 := by omega
  have minute : t.second / 60 % 60 < 10 ^ 2 := by omega
  have second : t.second % 60 + (if t.inLeapSecond then 1 else 0) < 10 ^ 2 := by
    split <;> omega
  rw [clock, DateTime.clockText]
  simp only [List.append_assoc, List.cons_append, number_fixed hour, number_fixed minute,
    number_fixed second, mark, bind, Except.bind, beq_self_eq_true, if_true]
  split
  · rename_i point
    exact absurd (List.cons.inj point).1 (by decide)
  · simp only [pure, Except.pure, ofFields_clock]

/-- An instant is the one at its day, second and nanosecond. -/
theorem ofLocal_self (t : Instant) : Instant.ofLocal? t.date t.second t.nano 0 = some t := by
  have hsecond := t.second_lt
  simp only [secondsPerDay] at hsecond
  have day : (t.day * secondsPerDay + t.second - 0) / secondsPerDay = t.day := by
    simp only [secondsPerDay]
    omega
  have second : ((t.day * secondsPerDay + t.second - 0) % secondsPerDay).toNat = t.second := by
    simp only [secondsPerDay]
    omega
  rw [Instant.ofLocal?, DateTime.date, Date.dayNumber_ofDayNumber, Instant.ofUnixSeconds?, day,
    second, Instant.make?, dif_pos ⟨⟨t.day_ge, t.day_le⟩, t.second_lt, t.nano_lt,
      t.leap_at_minute_end⟩]

/-- The beginning of a second is the one at its day and second. -/
theorem ofLocal_date (t : Instant) :
    Instant.ofLocal? t.date t.second t.truncate.nano 0 = some t.truncate :=
  ofLocal_self t.truncate

/-- The date of an instant is one that the calendar has, if its year has four digits. -/
theorem valid_date {t : Instant} (low : 0 ≤ t.date.year) (high : t.date.year ≤ 9999) :
    t.date.Valid := by
  have first : Date.firstYear ≤ 0 := by decide
  have last : 9999 ≤ Date.lastYear := by decide
  exact Date.valid_ofDayNumber (Int.le_trans first low) (Int.le_trans high last)

/-- The text of an instant is long enough to be read. -/
theorem shortest_le_display {t : Instant} (low : 0 ≤ t.date.year) (high : t.date.year ≤ 9999) :
    shortest ≤ t.display.utf8ByteSize := by
  have long : (DateTime.dateText t.date ++ 'T' :: (t.clockText ++ ['Z'])).length = 20 := by
    rw [DateTime.dateText, DateTime.yearText, if_pos ⟨low, high⟩, DateTime.clockText]
    simp only [List.length_append, List.length_cons, length_fixed, List.length_nil]
  have bytes := length_le_utf8ByteSize (DateTime.dateText t.date ++ 'T' :: (t.clockText ++ ['Z']))
  rw [long] at bytes
  exact Nat.le_trans (by decide) bytes

/-- The text of an instant is read back as the beginning of its second. -/
theorem read_display {t : Instant} (low : 0 ≤ t.date.year) (high : t.date.year ≤ 9999) :
    read t.display = .ok t.truncate := by
  have long := Nat.not_lt.mpr (shortest_le_display low high)
  rw [read, if_neg long, DateTime.display, String.toList_ofList]
  simp only [date_dateText (valid_date low high) low high, mark, bind, Except.bind,
    beq_self_eq_true, Bool.true_or, if_true, clock_clockText, offset, List.isEmpty_nil,
    Bool.not_true, ofLocal_date, true_or, pure, Except.pure]
  rfl

/-- The text of an instant in another year begins with a sign, so it is refused. -/
theorem read_display_of_signed {t : Instant}
    (signed : ¬(0 ≤ t.date.year ∧ t.date.year ≤ 9999)) : read t.display = .error .invalid := by
  have year : DateTime.yearText t.date.year =
      (if t.date.year < 0 then '-' else '+') :: padded 4 t.date.year.natAbs := by
    rw [DateTime.yearText, if_neg signed]
  have long : ¬t.display.utf8ByteSize < shortest := by
    have bytes := length_le_utf8ByteSize
      (DateTime.dateText t.date ++ 'T' :: (t.clockText ++ ['Z']))
    have digits := le_length_padded (by decide : 0 < 4) t.date.year.natAbs
    rw [DateTime.dateText, year, DateTime.clockText] at bytes
    simp only [List.length_append, List.length_cons, length_fixed, List.length_nil] at bytes
    rw [DateTime.display, DateTime.dateText, year, DateTime.clockText]
    simp only [shortest]
    omega
  have refused : ∀ rest : List Char, number 4 (DateTime.yearText t.date.year ++ rest) =
      .error .invalid := by
    intro rest
    rw [year]
    split <;> rfl
  rw [read, if_neg long, DateTime.display, String.toList_ofList, DateTime.dateText,
    List.append_assoc, date, refused]
  rfl

end Rfc3339

/-! ## Leap seconds within a minute -/

namespace DateTime

variable {t : DateTime}

theorem spelled_of_settled (settled : t.Settled) : t.spelled.toDateTime = t := by
  rw [spelled, dif_pos settled]

/-- A leap second within a minute denotes the second after it, which is an ordinary one. -/
theorem spelled_of_unsettled (unsettled : ¬t.Settled) :
    t.spelled.day = t.day ∧ t.spelled.second = t.second + 1 ∧
      t.spelled.nano = t.nano - nanosPerSecond := by
  rw [spelled, dif_neg unsettled]
  exact ⟨rfl, rfl, rfl⟩

theorem date_spelled (t : DateTime) : t.spelled.date = t.date := by
  by_cases settled : t.Settled
  · rw [spelled_of_settled settled]
  · rw [date, date, (spelled_of_unsettled settled).1]

/-- A leap second is written as the second after its second, so within a minute it is written like
the ordinary one that follows. -/
theorem clockText_spelled (t : DateTime) : t.spelled.clockText = t.clockText := by
  by_cases settled : t.Settled
  · rw [spelled_of_settled settled]
  · obtain ⟨leap, within⟩ := within_minute settled
    obtain ⟨-, second, nano⟩ := spelled_of_unsettled settled
    have ordinary := Nat.not_le.mpr t.nano_sub_lt
    have hour : (t.second + 1) / 3600 = t.second / 3600 := by omega
    have minute : (t.second + 1) / 60 % 60 = t.second / 60 % 60 := by omega
    have shown : (t.second + 1) % 60 = t.second % 60 + 1 := by omega
    simp only [clockText, inLeapSecond, second, nano, ordinary, leap, hour, minute, shown,
      decide_true, decide_false, if_true, Bool.false_eq_true, if_false, Nat.add_zero]

/-- **The text of a date-time is that of the instant that it denotes.** -/
theorem display_spelled (t : DateTime) : t.spelled.display = t.display := by
  rw [display, display, date_spelled, clockText_spelled]

/-- A third of a second into the leap second after 08:59:50 on the first day of 2024. -/
def withinMinute : DateTime where
  day := 19723
  second := 32390
  nano := 1333333333
  day_ge := by decide
  day_le := by decide
  second_lt := by decide
  nano_lt := by decide

end DateTime

namespace ResourceVersion

/-- What the strict form accepts is a token, and no text of it is empty. -/
theorem parse_of_read {token : String} {t : Instant} (accepted : Rfc3339.read token = .ok t) :
    parse token = .ok ⟨t⟩ := by
  have nonempty : token.isEmpty = false := by
    rw [String.isEmpty_eq_false_iff]
    rintro rfl
    have short : Rfc3339.read "" = .error .tooShort := rfl
    rw [short] at accepted
    cases accepted
  simp only [parse, nonempty, accepted, Bool.false_eq_true, if_false]

/-- **A token is read back as the beginning of the second of its version.** -/
theorem parse_display {v : ResourceVersion} (low : 0 ≤ v.time.date.year)
    (high : v.time.date.year ≤ 9999) : parse v.display = .ok v.truncate :=
  parse_of_read (Rfc3339.read_display low high)

/-- **The token of a version in another year is refused.** -/
theorem parse_display_of_signed {v : ResourceVersion}
    (signed : ¬(0 ≤ v.time.date.year ∧ v.time.date.year ≤ 9999)) :
    parse v.display = .error ⟨v.display, .invalid⟩ := by
  have refused : Rfc3339.read v.display = .error .invalid := Rfc3339.read_display_of_signed signed
  have nonempty : v.display.isEmpty = false := by
    rw [String.isEmpty_eq_false_iff]
    intro empty
    rw [empty] at refused
    exact absurd refused (by decide)
  simp only [parse, nonempty, refused, Bool.false_eq_true, if_false]

end ResourceVersion

end BugFeed
