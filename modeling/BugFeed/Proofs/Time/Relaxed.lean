import BugFeed.Proofs.Text.Digits
import BugFeed.Proofs.Time.Token
import BugFeed.Time.Relaxed

/-!
# The full text of an instant is read back

The relaxed form takes the full text of every instant back to the instant (`read_displayFull`): in
all supported years, with or without a sign, to the nanosecond, and in leap seconds. Its parts are
read back with any text behind them: a year (`year_yearText`), a date (`date_dateText`), the places
of a second (`nanoseconds_fixed`) and a time of day with them (`clock_clockText`). The full text of a
date-time is that of the instant that it denotes, and is read back as that one
(`read_displayFull_spelled`).
-/

namespace BugFeed.Relaxed

set_option autoImplicit false

open Text

/-! ## Numbers and marks -/

theorem fixed_ne_nil {width : Nat} (positive : 0 < width) (n : Nat) : fixed width n ≠ [] := by
  rw [← List.length_pos_iff, length_fixed]
  exact positive

/-- A number of fixed width is read back. -/
theorem number_fixed {width n : Nat} (positive : 0 < width) (h : n < 10 ^ width)
    (rest : List Char) : number width (fixed width n ++ rest) = some (n, rest) := by
  have nonempty := fixed_ne_nil positive n
  have digits := allDigits_fixed width n
  rw [number, skipBlanks_of_digits digits nonempty,
    readSome_append digits nonempty (length_fixed width n).le (.inl (length_fixed width n)),
    digitsValue_fixed_of_lt h]

/-- No blank is skipped before a character that is none. -/
theorem skipBlanks_cons {c : Char} (h : isBlank c = false) (rest : List Char) :
    skipBlanks (c :: rest) = c :: rest := by
  rw [skipBlanks, List.dropWhile_cons_of_neg (by rw [h]; decide)]

theorem mark_self {c : Char} (h : isBlank c = false) (rest : List Char) :
    mark c (c :: rest) = some rest := by
  rw [mark, skipBlanks_cons h]
  simp only [if_true]

/-! ## Dates -/

/-- Digits begin with no sign. -/
theorem not_signed {ds rest : List Char} (digits : AllDigits ds) (nonempty : ds ≠ []) {sign : Char}
    (h : sign.isDigit = false) (cs : List Char) : ds ++ rest ≠ sign :: cs := by
  intro signed
  obtain ⟨d, ds, rfl⟩ := List.exists_cons_of_ne_nil nonempty
  have digit := digits d List.mem_cons_self
  rw [(List.cons.inj signed).1, h] at digit
  cases digit

/-- A year is read back, up to the mark behind it. -/
theorem year_yearText (y : Int) (rest : List Char) :
    year (DateTime.yearText y ++ '-' :: rest) = some (y, '-' :: rest) := by
  have apart : NoDigitFirst ('-' :: rest) := noDigitFirst_cons (by decide) rest
  rw [DateTime.yearText]
  split
  · rename_i four
    have digits := allDigits_fixed 4 y.toNat
    have nonempty := fixed_ne_nil (by decide : 0 < 4) y.toNat
    have read := @readSome_append 4 _ _ digits nonempty (length_fixed 4 _).le (.inr apart)
    have bound : y.toNat < 10 ^ 4 := by omega
    rw [digitsValue_fixed_of_lt bound] at read
    rw [year, skipBlanks_of_digits digits nonempty]
    split
    · exact absurd ‹_› (not_signed digits nonempty (by decide) _)
    · exact absurd ‹_› (not_signed digits nonempty (by decide) _)
    · rw [read, Option.map_some, Int.toNat_of_nonneg four.1]
  · have nonempty : padded 4 y.natAbs ≠ [] := by
      rw [← List.length_pos_iff]
      exact Nat.lt_of_lt_of_le (by decide) (le_length_padded (by decide) y.natAbs)
    have short : (padded 4 y.natAbs).length ≤ (padded 4 y.natAbs ++ '-' :: rest).length := by
      rw [List.length_append]
      omega
    have read := readSome_append (allDigits_padded 4 y.natAbs) nonempty short (.inr apart)
    rw [digitsValue_padded] at read
    split
    · rename_i negative
      have value : -(y.natAbs : Int) = y := by omega
      rw [List.cons_append, year, skipBlanks_cons (by decide)]
      simp only [read, Option.map_some, value]
    · rename_i positive
      have value : (y.natAbs : Int) = y := by omega
      rw [List.cons_append, year, skipBlanks_cons (by decide)]
      simp only [read, Option.map_some, value]

/-- The text of a date is read back. -/
theorem date_dateText {d : Date} (valid : d.Valid) {rest : List Char} :
    date (DateTime.dateText d ++ rest) = some (d, rest) := by
  have hmonth : d.month < 10 ^ 2 := by
    have := valid.2.2.2.1
    omega
  have hday : d.day < 10 ^ 2 := by
    have hle := valid.2.2.2.2.2
    have short := Date.daysInMonth_le d.year d.month
    omega
  have dash : isBlank '-' = false := by decide
  rw [date, DateTime.dateText]
  simp only [List.append_assoc, List.cons_append, year_yearText,
    mark_self dash, number_fixed (by decide) hmonth, number_fixed (by decide) hday, bind,
    Option.bind_some, if_pos valid]

/-! ## Times of day -/

/-- The places of a second are read back as nanoseconds. -/
theorem nanoseconds_fixed {width n : Nat} (positive : 0 < width) (short : width ≤ 9)
    (h : n < 10 ^ width) {c : Char} (apart : c.isDigit = false) (rest : List Char) :
    Rfc3339.nanoseconds (fixed width n ++ c :: rest) =
      .ok (n * 10 ^ (9 - width), c :: rest) := by
  have taken := takeDigits_append (allDigits_fixed width n) ((length_fixed width n).trans_le short)
    (.inr (noDigitFirst_cons apart rest))
  have value := digitsValue_fixed_of_lt h
  have length := length_fixed width n
  rw [Rfc3339.nanoseconds, taken]
  cases digits : fixed width n with
  | nil => exact absurd digits (fixed_ne_nil positive n)
  | cons d ds =>
      rw [digits] at value length
      simp only [dropWhile_isDigit (noDigitFirst_cons apart rest), value, length, Nat.pow_eq]

/-- The places of a second are none if it is a whole one, or else three, six or nine that make up
its nanoseconds. -/
theorem fractionText_cases (t : Instant) :
    (t.fractionText = [] ∧ t.nano % nanosPerSecond = 0) ∨
      ∃ width n, t.fractionText = '.' :: fixed width n ∧ 0 < width ∧ width ≤ 9 ∧ n < 10 ^ width ∧
        n * 10 ^ (9 - width) = t.nano % nanosPerSecond := by
  have bound : t.nano % nanosPerSecond < 10 ^ 9 := Nat.mod_lt _ (by decide)
  rw [DateTime.fractionText]
  generalize t.nano % nanosPerSecond = nano at *
  split
  · rename_i whole
    exact .inl ⟨rfl, whole⟩
  · refine .inr ?_
    split
    · exact ⟨3, nano / 1000000, rfl, by decide, by decide, by omega, by omega⟩
    · split
      · exact ⟨6, nano / 1000, rfl, by decide, by decide, by omega, by omega⟩
      · exact ⟨9, nano, rfl, by decide, by decide, bound, by omega⟩

/-- The nanoseconds of an instant are those of its second, and a second billion in a leap second. -/
theorem nano_parts (t : Instant) :
    t.nano % nanosPerSecond + (if t.inLeapSecond then nanosPerSecond else 0) = t.nano := by
  have bound := t.nano_lt
  by_cases leap : t.inLeapSecond = true
  · rw [if_pos leap]
    simp only [DateTime.inLeapSecond, decide_eq_true_eq] at leap
    simp only [nanosPerSecond] at *
    omega
  · rw [if_neg leap]
    simp only [DateTime.inLeapSecond, decide_eq_true_eq] at leap
    simp only [nanosPerSecond] at *
    omega

/-- The text of a time of day is read back to the nanosecond. -/
theorem clock_clockText (t : Instant) (rest : List Char) :
    clock (t.clockText ++ (t.fractionText ++ 'Z' :: rest)) =
      some (⟨t.second, t.nano⟩, 'Z' :: rest) := by
  have hsecond := t.second_lt
  simp only [secondsPerDay] at hsecond
  have hour : t.second / 3600 < 10 ^ 2 := by omega
  have minute : t.second / 60 % 60 < 10 ^ 2 := by omega
  have second : t.second % 60 + (if t.inLeapSecond then 1 else 0) < 10 ^ 2 := by
    split <;> omega
  have colon : isBlank ':' = false := by decide
  have fields := Rfc3339.ofFields_second t (t.nano % nanosPerSecond)
  rw [nano_parts] at fields
  rw [clock, DateTime.clockText]
  simp only [List.append_assoc, List.cons_append, number_fixed (by decide) hour,
    number_fixed (by decide) minute, number_fixed (by decide) second, mark_self colon, bind,
    Option.bind_some]
  rcases fractionText_cases t with ⟨none, whole⟩ | ⟨width, n, some, positive, short, small, value⟩
  · rw [none, List.nil_append]
    rw [whole] at fields
    simp [fields]
  · rw [some, List.cons_append]
    have read := nanoseconds_fixed positive short small (by decide : 'Z'.isDigit = false) rest
    rw [value] at read
    simp [read, Except.toOption, fields]

/-! ## Instants -/

/-- The date of an instant is one that the calendar has. -/
theorem valid_date (t : Instant) : t.date.Valid := by
  obtain ⟨first, last⟩ := Date.year_bounds t.day_ge t.day_le
  exact Date.valid_ofDayNumber first last

/-- **The full text of an instant is read back as the instant.** -/
theorem read_displayFull (t : Instant) : read? t.displayFull = some t := by
  have universal : offset ['Z'] = some (0, []) := by decide
  rw [read?, DateTime.displayFull, String.toList_ofList]
  simp only [date_dateText (valid_date t), separator, clock_clockText, bind, Option.bind_some,
    true_or, if_true, skipBlanks_cons (by decide : isBlank 'Z' = false), universal]
  simp [skipBlanks, secondsPerDay, Rfc3339.ofLocal_self]

/-! ## Date-times -/

/-- A leap second within a minute has the decimal places of the second after it. -/
theorem fractionText_spelled (t : DateTime) : t.spelled.fractionText = t.fractionText := by
  by_cases settled : t.Settled
  · rw [DateTime.spelled_of_settled settled]
  · have leap := (DateTime.within_minute settled).1
    have nano := (DateTime.spelled_of_unsettled settled).2.2
    have part : (t.nano - nanosPerSecond) % nanosPerSecond = t.nano % nanosPerSecond :=
      (Nat.mod_eq_sub_mod leap).symm
    simp only [DateTime.fractionText, nano, part]

theorem displayFull_spelled (t : DateTime) : t.spelled.displayFull = t.displayFull := by
  rw [DateTime.displayFull, DateTime.displayFull, t.date_spelled, t.clockText_spelled,
    fractionText_spelled]

/-- **The full text of a date-time is read back as the instant that it denotes**, which is the
date-time itself but for leap seconds within a minute. -/
theorem read_displayFull_spelled (t : DateTime) : read? t.displayFull = some t.spelled := by
  rw [← displayFull_spelled, read_displayFull]

end BugFeed.Relaxed
