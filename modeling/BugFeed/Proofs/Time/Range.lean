import BugFeed.Proofs.Text.Digits
import BugFeed.Proofs.Time.DayCount
import BugFeed.Proofs.Time.Order

/-!
# The range of accepted tokens

A token that is accepted spells a date of the calendar, a time of day and an offset shorter than a
day (`Rfc3339.read_ok`), and its year has four digits, so it lies between 0 and 9999. The offset
moves the instant by less than a day. It may leave these years by that, but only into the last day
of the year before them or the first day of the year after them: the years of accepted tokens are
-1 to 10000 (`ResourceVersion.year_of_parse`).
-/

namespace BugFeed

set_option autoImplicit false

namespace Rfc3339

/-! ## What the strict form accepts -/

/-- Two readers in sequence accept what the first accepts and the second accepts after it. -/
theorem bind_eq_ok {ε α β : Type} {x : Except ε α} {f : α → Except ε β} {b : β} :
    (x >>= f) = .ok b ↔ ∃ a, x = .ok a ∧ f a = .ok b := by
  cases x with
  | error fault => simp only [bind, Except.bind, reduceCtorEq, false_and, exists_false]
  | ok a => simp only [bind, Except.bind, Except.ok.injEq, exists_eq_left']

theorem number_lt {width n : Nat} {cs rest : List Char} (h : number width cs = .ok (n, rest)) :
    n < 10 ^ width := by
  rw [number] at h
  split at h
  · rename_i read
    cases h
    have below := Text.readFixedFrom_lt read
    rwa [Nat.zero_add, Nat.one_mul] at below
  · cases h

theorem date_ok {cs rest : List Char} {d : Date} (h : date cs = .ok (d, rest)) :
    d.Valid ∧ 0 ≤ d.year ∧ d.year ≤ 9999 := by
  simp only [date, bind_eq_ok] at h
  obtain ⟨⟨year, _⟩, digits, _, _, _, _, _, _, _, _, h⟩ := h
  have below := number_lt digits
  split at h
  · cases h
    refine ⟨‹_›, ?_, ?_⟩
    · exact Int.natCast_nonneg year
    · change (year : Int) ≤ 9999
      omega
  · cases h

theorem ofFields_ok {hour minute second nano : Nat} {c : Clock}
    (h : Clock.ofFields? hour minute second nano = some c) : c.second < secondsPerDay := by
  simp only [Clock.ofFields?, secondsPerDay] at *
  split at h
  · split at h <;> cases h <;> simp only <;> omega
  · cases h

theorem clock_ok {cs rest : List Char} {c : Clock} (h : clock cs = .ok (c, rest)) :
    c.second < secondsPerDay := by
  simp only [clock, bind_eq_ok] at h
  obtain ⟨_, _, _, _, _, _, _, _, _, _, h⟩ := h
  split at h
  -- Whether the second has decimal places or not, the fields are checked in the same way.
  all_goals
    obtain ⟨_, _, fields⟩ := bind_eq_ok.mp h
    split at fields
    · rename_i made
      cases fields
      exact ofFields_ok made
    · cases fields

/-- The strict form accepts a date of the calendar with a year of four digits, a time of day and an
offset shorter than a day. -/
theorem read_ok {s : String} {t : Instant} (h : read s = .ok t) :
    ∃ (d : Date) (c : Clock) (offset : Int), (d.Valid ∧ 0 ≤ d.year ∧ d.year ≤ 9999) ∧
      c.second < secondsPerDay ∧ offset.natAbs < secondsPerDay ∧
      Instant.ofLocal? d c.second c.nano offset = some t := by
  rw [read] at h
  split at h
  · cases h
  simp only [bind_eq_ok] at h
  obtain ⟨⟨d, _⟩, spelled, _, _, ⟨c, _⟩, shown, ⟨offset, _⟩, _, h⟩ := h
  split at h
  · cases h
  split at h
  · cases h
  rename_i short
  split at h
  · rename_i made
    cases h
    exact ⟨d, c, offset, date_ok spelled, clock_ok shown, Nat.lt_of_not_le short, made⟩
  · cases h

/-- An accepted instant lies no further than a day from the years 0 to 9999. -/
theorem day_of_read {s : String} {t : Instant} (h : read s = .ok t) :
    -719529 ≤ t.day ∧ t.day ≤ 2932897 := by
  obtain ⟨d, c, offset, ⟨valid, begun, written⟩, shown, short, made⟩ := read_ok h
  obtain ⟨low, high⟩ := Date.dayNumber_bounds valid begun written
  have seconds := (Instant.ofUnixSeconds?_eq_some made).1
  have inDay := t.second_lt
  simp only [DateTime.unixSeconds, secondsPerDay] at *
  omega

end Rfc3339

/-! ## Years of accepted tokens -/

namespace ResourceVersion

theorem day_of_parse {token : String} {v : ResourceVersion} (h : parse token = .ok v) :
    -719529 ≤ v.time.day ∧ v.time.day ≤ 2932897 := by
  rw [parse] at h
  split at h
  · cases h
    decide
  · split at h
    · rename_i accepted
      cases h
      exact Rfc3339.day_of_read accepted
    · cases h

/-- **The version of a token lies in the years -1 to 10000.** -/
theorem year_of_parse {token : String} {v : ResourceVersion} (h : parse token = .ok v) :
    -1 ≤ v.time.date.year ∧ v.time.date.year ≤ 10000 := by
  obtain ⟨low, high⟩ := day_of_parse h
  have first : (Date.ofDayNumber (-719529)).year = -1 := by decide
  have last : (Date.ofDayNumber 2932897).year = 10000 := by decide
  exact ⟨first ▸ Date.year_mono low, last ▸ Date.year_mono high⟩

/-- An offset may lead out of the years of four digits. -/
example : (parse "0000-01-01T00:00:00+00:01").map (·.time.date) = .ok ⟨-1, 12, 31⟩ ∧
    (parse "9999-12-31T23:59:60-23:59").map (·.time.date) = .ok ⟨10000, 1, 1⟩ := ⟨rfl, rfl⟩

end ResourceVersion

end BugFeed
