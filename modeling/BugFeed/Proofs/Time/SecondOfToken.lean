import BugFeed.Proofs.Time.Order
import BugFeed.Proofs.Time.Relaxed

/-!
# The second that a token names

A token is the text of a second. Date-times of one second have the same token, leap seconds
included, because a token is the full text of the beginning of its second
(`DateTime.displayFull_truncate`). The full text of an instant is read back in every year by the
relaxed form, so instants of different seconds have different tokens, also in the years whose tokens
the strict form refuses.

So the version of an instant is read back as the beginning of its second, or is refused for the sign
of its year, and the versions of two instants have the same token exactly if they lie in the same
second. Not so in a leap second within a minute: its token is that of the ordinary second after it,
and names that one (`ResourceVersion.token_names_second`).
-/

namespace BugFeed

set_option autoImplicit false

namespace DateTime

variable {t : DateTime}

theorem inLeapSecond_truncate (t : DateTime) : t.truncate.inLeapSecond = t.inLeapSecond := by
  have apart : ¬nanosPerSecond ≤ 0 := by decide
  by_cases leap : nanosPerSecond ≤ t.nano
  · simp only [inLeapSecond, truncate, leap, if_true, Nat.le_refl]
  · simp only [inLeapSecond, truncate, leap, if_false, apart]

/-- A whole second has no decimal places, be it a leap second or not. -/
theorem fractionText_truncate (t : DateTime) : t.truncate.fractionText = [] := by
  have whole : t.truncate.nano % nanosPerSecond = 0 := by
    simp only [truncate]
    split
    · exact Nat.mod_self _
    · exact Nat.zero_mod _
  simp only [fractionText, whole, if_true]

theorem clockText_truncate (t : DateTime) : t.truncate.clockText = t.clockText := by
  rw [clockText, clockText, inLeapSecond_truncate]
  rfl

theorem display_truncate (t : DateTime) : t.truncate.display = t.display := by
  rw [display, display, clockText_truncate]
  rfl

/-- **The text of a date-time is the full text of the beginning of its second.** -/
theorem displayFull_truncate (t : DateTime) : t.truncate.displayFull = t.display := by
  rw [displayFull, display, fractionText_truncate, clockText_truncate, List.nil_append]
  rfl

theorem settled_truncate (settled : t.Settled) : t.truncate.Settled :=
  (Instant.truncate ⟨t, settled⟩).leap_at_minute_end

/-- Two date-times have the same text exactly if the beginnings of their seconds denote the same. -/
theorem display_eq_iff {a b : DateTime} :
    a.display = b.display ↔ a.truncate.spelled = b.truncate.spelled := by
  rw [← displayFull_truncate a, ← displayFull_truncate b]
  constructor
  · intro same
    have read := congrArg Relaxed.read? same
    rw [Relaxed.read_displayFull_spelled, Relaxed.read_displayFull_spelled] at read
    exact Option.some.inj read
  · intro same
    rw [← Relaxed.displayFull_spelled, same, Relaxed.displayFull_spelled]

/-- Two instants have the same text exactly if their seconds have the same beginning. -/
theorem display_eq_iff_of_settled {a b : DateTime} (ha : a.Settled) (hb : b.Settled) :
    a.display = b.display ↔ a.truncate = b.truncate := by
  rw [display_eq_iff, ← Instant.toDateTime_inj, spelled_of_settled (settled_truncate ha),
    spelled_of_settled (settled_truncate hb)]

/-- A leap second within a minute is written like the beginning of the next second. -/
theorem nextSecond?_of_unsettled (unsettled : ¬t.Settled) :
    t.nextSecond? = some t.spelled.truncate := by
  obtain ⟨day, second, nano⟩ := spelled_of_unsettled unsettled
  have later : t.spelled.unixSeconds = t.unixSeconds + 1 := by
    rw [unixSeconds, unixSeconds, day, second]
    omega
  have ordinary : t.spelled.inLeapSecond = false := by
    rw [inLeapSecond, nano]
    exact decide_eq_false (Nat.not_le.mpr t.nano_sub_lt)
  obtain ⟨n, next, -⟩ := exists_nextSecond_le (t := t) (u := t.spelled.toDateTime) (by omega)
  obtain ⟨seconds, whole⟩ := nextSecond?_eq_some next
  have same : n = t.spelled.truncate :=
    Instant.eq_of_unixSeconds_eq (seconds.trans later.symm)
      (whole.trans (truncate_nano ordinary).symm)
  rw [next, same]

end DateTime

namespace ResourceVersion

/-- A token is read back as the beginning of the second that it denotes, or refused for its sign. -/
theorem parse_display_spelled (t : DateTime) : parse t.display =
    if 0 ≤ t.date.year ∧ t.date.year ≤ 9999 then .ok ⟨t.spelled.truncate⟩
    else .error ⟨t.display, .invalid⟩ := by
  have shown : t.display = (mk t.spelled).display := t.display_spelled.symm
  rw [shown, ← t.date_spelled]
  split
  · rename_i year
    exact parse_display year.1 year.2
  · rename_i signed
    exact parse_display_of_signed signed

/-- **A token names a second.** Let a date-time lie in no leap second but one at the end of a
minute. In the years 0 to 9999 the token of its version is read back as the beginning of its second,
whatever the part of the second, and in leap seconds too. In any other year the token is refused for
its sign. The versions of two such date-times, in whatever years, have the same token exactly if the
beginnings of their seconds are the same. The token of a leap second within a minute is that of the
beginning of the next second, and is read back as that one. -/
theorem token_names_second :
    (∀ t : DateTime, t.Settled →
      (0 ≤ t.date.year ∧ t.date.year ≤ 9999 →
        ∃ v, parse t.display = .ok v ∧ v.time.toDateTime = t.truncate) ∧
      (¬(0 ≤ t.date.year ∧ t.date.year ≤ 9999) →
        parse t.display = .error ⟨t.display, .invalid⟩)) ∧
    (∀ a b : DateTime, a.Settled → b.Settled →
      (a.display = b.display ↔ a.truncate = b.truncate)) ∧
    ∀ t : DateTime, ¬t.Settled → ∃ n : Instant, t.nextSecond? = some n ∧ t.display = n.display ∧
      parse t.display =
        if 0 ≤ t.date.year ∧ t.date.year ≤ 9999 then .ok ⟨n⟩
        else .error ⟨t.display, .invalid⟩ := by
  refine ⟨fun t settled => ⟨fun year => ?_, fun signed => ?_⟩, fun a b => ?_, fun t unsettled => ?_⟩
  · refine ⟨⟨t.spelled.truncate⟩, ?_, ?_⟩
    · rw [parse_display_spelled, if_pos year]
    · exact congrArg DateTime.truncate (DateTime.spelled_of_settled settled)
  · rw [parse_display_spelled, if_neg signed]
  · exact DateTime.display_eq_iff_of_settled
  · refine ⟨t.spelled.truncate, DateTime.nextSecond?_of_unsettled unsettled, ?_,
      parse_display_spelled t⟩
    exact (t.spelled.display_truncate.trans t.display_spelled).symm

/-- The leap second after 08:59:50 has the token of 08:59:51, which is read back as that second and
not as the beginning of the leap second. -/
theorem leap_second_within_minute :
    ∃ v, DateTime.withinMinute.display = "2024-01-01T08:59:51Z" ∧
      parse DateTime.withinMinute.display = .ok v ∧
      v.time.toDateTime ≠ DateTime.withinMinute.truncate ∧
      v.display = DateTime.withinMinute.display :=
  ⟨_, rfl, rfl, by decide, rfl⟩

end ResourceVersion

end BugFeed
