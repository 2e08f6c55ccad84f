import Mathlib.Order.Lattice
import BugFeed.ResourceVersion

/-!
# The order of instants and of their seconds

Date-times are linearly ordered by their rank, and a rank is a second of the epoch and the
nanoseconds into it, where a leap second has a second billion of them. So an earlier second means
an earlier date-time (`DateTime.lt_of_unixSeconds_lt`). Instants are ordered as the date-times that
they are, and of instants outside leap seconds two have the same beginning of their second exactly
when they lie in the same second (`Instant.truncate_eq_iff`).

The first instant that a version has not covered is the beginning of the next second: it comes
no later than any instant of a later second (`exists_nextVisible_le`).
-/

namespace BugFeed

set_option autoImplicit false

namespace DateTime

instance : LinearOrder DateTime where
  le_refl a := Int.le_refl a.rank
  le_trans _ _ _ := Int.le_trans
  lt_iff_le_not_ge _ _ := Int.lt_iff_le_and_not_ge
  le_antisymm _ _ ab ba := eq_of_rank_eq (Int.le_antisymm ab ba)
  le_total a b := Int.le_total a.rank b.rank
  toDecidableLE := inferInstance
  toDecidableLT := inferInstance
  toDecidableEq := inferInstance

/-! ## Seconds -/

/-- A rank is a second and the nanoseconds into it. -/
theorem rank_eq (t : DateTime) : t.rank = t.unixSeconds * (2 * nanosPerSecond) + t.nano := rfl

theorem lt_of_unixSeconds_lt {a b : DateTime} (h : a.unixSeconds < b.unixSeconds) : a < b := by
  have ha := a.nano_lt
  change a.rank < b.rank
  rw [rank_eq, rank_eq]
  simp only [nanosPerSecond] at *
  omega

theorem unixSeconds_le_of_le {a b : DateTime} (h : a ≤ b) : a.unixSeconds ≤ b.unixSeconds := by
  by_contra hlt
  exact absurd h (not_le.mpr (lt_of_unixSeconds_lt (Int.not_le.mp hlt)))

/-- A date-time at the beginning of an ordinary second is the first of that second. -/
theorem le_of_unixSeconds_le {a b : DateTime} (whole : a.nano = 0)
    (h : a.unixSeconds ≤ b.unixSeconds) : a ≤ b := by
  change a.rank ≤ b.rank
  rw [rank_eq, rank_eq, whole]
  simp only [nanosPerSecond]
  omega

theorem unixSeconds_truncate (t : DateTime) : t.truncate.unixSeconds = t.unixSeconds := rfl

/-- A date-time is given by its second and the nanoseconds into it. -/
theorem eq_of_unixSeconds_eq {a b : DateTime} (second : a.unixSeconds = b.unixSeconds)
    (nano : a.nano = b.nano) : a = b :=
  eq_of_rank_eq (by rw [rank_eq, rank_eq, second, nano])

theorem truncate_nano {t : DateTime} (h : t.inLeapSecond = false) : t.truncate.nano = 0 := by
  simp only [inLeapSecond, decide_eq_false_iff_not] at h
  simp only [truncate, if_neg h]

/-- The beginning of a second keeps the order, in leap seconds also. -/
theorem truncate_mono {a b : DateTime} (h : a ≤ b) : a.truncate ≤ b.truncate := by
  have rank : a.rank ≤ b.rank := h
  have lower : a.truncate.nano = 0 ∨
      a.truncate.nano = nanosPerSecond ∧ nanosPerSecond ≤ a.nano := by
    simp only [truncate]
    split
    · exact .inr ⟨rfl, ‹_›⟩
    · exact .inl rfl
  have upper : b.truncate.nano = nanosPerSecond ∨
      b.nano < nanosPerSecond ∧ b.truncate.nano = 0 := by
    simp only [truncate]
    split
    · exact .inl rfl
    · exact .inr ⟨Nat.lt_of_not_le ‹_›, rfl⟩
  change a.truncate.rank ≤ b.truncate.rank
  rw [rank_eq, rank_eq] at rank ⊢
  rw [unixSeconds_truncate, unixSeconds_truncate]
  have ha := a.nano_lt
  have hb := b.nano_lt
  simp only [nanosPerSecond] at *
  omega

/-- The seconds of a date-time are in the supported range. -/
theorem unixSeconds_bounds (t : DateTime) :
    -96465292 * 86400 ≤ t.unixSeconds ∧ t.unixSeconds < (95026236 + 1) * 86400 := by
  have hge := t.day_ge
  have hle := t.day_le
  have hsec := t.second_lt
  simp only [unixSeconds, secondsPerDay] at *
  omega

end DateTime

namespace Instant

instance : LinearOrder Instant where
  le_refl a := le_refl a.toDateTime
  le_trans _ _ _ ab bc := Int.le_trans ab bc
  lt_iff_le_not_ge _ _ := Int.lt_iff_le_and_not_ge
  le_antisymm _ _ ab ba := toDateTime_inj.mp (DateTime.eq_of_rank_eq (Int.le_antisymm ab ba))
  le_total a b := le_total a.toDateTime b.toDateTime
  toDecidableLE := inferInstance
  toDecidableLT := inferInstance
  toDecidableEq := inferInstance

/-- An instant is given by its second and the nanoseconds into it. -/
theorem eq_of_unixSeconds_eq {a b : Instant} (second : a.unixSeconds = b.unixSeconds)
    (nano : a.nano = b.nano) : a = b :=
  toDateTime_inj.mp (DateTime.eq_of_unixSeconds_eq second nano)

/-- Outside leap seconds, two instants have one beginning of their second exactly when they lie
in one second. -/
theorem truncate_eq_iff {a b : Instant} (ha : a.inLeapSecond = false)
    (hb : b.inLeapSecond = false) : a.truncate = b.truncate ↔ a.unixSeconds = b.unixSeconds := by
  constructor
  · intro h
    have seconds := congrArg (fun t : Instant => t.unixSeconds) h
    exact seconds
  · intro h
    refine eq_of_unixSeconds_eq h ?_
    exact (DateTime.truncate_nano ha).trans (DateTime.truncate_nano hb).symm

/-- The instants between two of one second lie in that second. -/
theorem truncate_eq_of_between {a b c : Instant} (ab : a ≤ b) (bc : b ≤ c)
    (same : a.truncate = c.truncate) : a.truncate = b.truncate := by
  have upTo : b.truncate ≤ c.truncate := DateTime.truncate_mono bc
  exact le_antisymm (DateTime.truncate_mono ab) (same ▸ upTo)

/-! ## The next second -/

/-- What the instant at a number of seconds is. -/
theorem ofUnixSeconds?_eq_some {seconds : Int} {nano : Nat} {t : Instant}
    (h : ofUnixSeconds? seconds nano = some t) : t.unixSeconds = seconds ∧ t.nano = nano := by
  simp only [ofUnixSeconds?, make?] at h
  split at h
  · cases h
    refine ⟨?_, rfl⟩
    simp only [DateTime.unixSeconds, secondsPerDay]
    omega
  · cases h

/-- Every moment of an ordinary second of the supported range is an instant. -/
theorem exists_ofUnixSeconds {seconds : Int} {nano : Nat} (part : nano < nanosPerSecond)
    (low : -96465292 * 86400 ≤ seconds) (high : seconds < (95026236 + 1) * 86400) :
    ∃ t, ofUnixSeconds? seconds nano = some t := by
  have hrange : (-96465292 ≤ seconds / secondsPerDay ∧ seconds / secondsPerDay ≤ 95026236) ∧
      (seconds % secondsPerDay).toNat < secondsPerDay ∧ nano < 2 * nanosPerSecond ∧
      (nanosPerSecond ≤ nano → (seconds % secondsPerDay).toNat % 60 = 59) := by
    simp only [secondsPerDay, nanosPerSecond] at *
    omega
  exact ⟨_, by rw [ofUnixSeconds?, make?, dif_pos hrange]⟩

end Instant

namespace DateTime

theorem nextSecond?_eq_some {t : DateTime} {u : Instant} (h : t.nextSecond? = some u) :
    u.unixSeconds = t.unixSeconds + 1 ∧ u.nano = 0 :=
  Instant.ofUnixSeconds?_eq_some h

/-- The beginning of the next second comes no later than anything in a later second. -/
theorem exists_nextSecond_le {t u : DateTime} (h : t.unixSeconds < u.unixSeconds) :
    ∃ v : Instant, t.nextSecond? = some v ∧ v.toDateTime ≤ u := by
  have ht := t.unixSeconds_bounds
  have hu := u.unixSeconds_bounds
  obtain ⟨v, hv⟩ : ∃ v, t.nextSecond? = some v :=
    Instant.exists_ofUnixSeconds (by decide) (by omega) (by omega)
  obtain ⟨second, nano⟩ := nextSecond?_eq_some hv
  exact ⟨v, hv, le_of_unixSeconds_le nano (by omega)⟩

end DateTime

/-! ## The later of two instants -/

namespace Instant

theorem latest_eq_max (a b : Instant) : a.latest b = max a b := by
  rw [max_def]
  rfl

end Instant

namespace ResourceVersion

theorem isAfter_iff {a b : ResourceVersion} : a.isAfter b = true ↔ b.time < a.time := by
  simp only [isAfter, decide_eq_true_eq]

theorem isAfter_eq_false_iff {a b : ResourceVersion} :
    a.isAfter b = false ↔ a.time ≤ b.time := by
  rw [← not_lt, ← isAfter_iff, Bool.not_eq_true]

theorem latest_time (a b : ResourceVersion) : (a.latest b).time = max a.time b.time := by
  by_cases h : a.time < b.time
  · rw [latest, if_pos (isAfter_iff.mpr h), max_eq_right (le_of_lt h)]
  · rw [latest, if_neg (fun after => h (isAfter_iff.mp after)), max_eq_left (not_lt.mp h)]

theorem latest_unixSeconds (a b : ResourceVersion) :
    (a.latest b).time.unixSeconds = max a.time.unixSeconds b.time.unixSeconds := by
  rw [latest_time]
  rcases le_total a.time b.time with hle | hle
  · rw [max_eq_right hle, Int.max_eq_right (DateTime.unixSeconds_le_of_le hle)]
  · rw [max_eq_left hle, Int.max_eq_left (DateTime.unixSeconds_le_of_le hle)]

/-- The first instant that a version has not covered is the beginning of the next second. -/
theorem nextVisible?_eq_some {v n : ResourceVersion} (h : v.nextVisible? = some n) :
    n.time.unixSeconds = v.time.unixSeconds + 1 ∧ n.time.nano = 0 := by
  simp only [nextVisible?, Option.map_eq_some_iff] at h
  obtain ⟨t, ht, rfl⟩ := h
  exact DateTime.nextSecond?_eq_some ht

/-- An instant of a later second is not before the first instant that a version has not
covered. -/
theorem exists_nextVisible_le {v : ResourceVersion} {t : Instant}
    (h : v.time.unixSeconds < t.unixSeconds) : ∃ n, v.nextVisible? = some n ∧ n.time ≤ t := by
  obtain ⟨u, hu, hle⟩ := DateTime.exists_nextSecond_le (t := v.truncate.time.toDateTime) h
  exact ⟨⟨u⟩, by rw [nextVisible?, hu]; rfl, hle⟩

end ResourceVersion

end BugFeed
