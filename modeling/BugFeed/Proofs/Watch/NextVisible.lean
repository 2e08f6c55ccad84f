import BugFeed.Feed
import BugFeed.Proofs.Time.SecondOfToken

/-!
# The first second that a version has not covered

A watch goes on at the beginning of the ordinary second after that of its version. There is one
unless the version lies in the last second of the supported range (`nextVisible?_eq_none_iff`), it
comes after the version, and of two versions the later one does not have the earlier one
(`DateTime.nextSecond?_mono`).

What lies in a later second lies in a second of a larger number, or in the leap second that follows
the ordinary second of the version (`DateTime.truncate_lt_truncate_iff`). Where leap seconds lie is
not known, so the addition of a second steps over them, and the order of date-times does not: a leap
second comes after the second that it follows and before the next one. It is all that a watch passes
over (`first_second_uncovered`); the watch after 23:59:59 starts at midnight, and a change at
23:59:60 comes before that (`leap_second_passed_over`).

All this holds of date-times, whose leap seconds may lie anywhere. But a watch goes on from a token,
and the token of a leap second within a minute names the second after it, so there the watch starts a
second later (`start_of_resumed`).
-/

namespace BugFeed

set_option autoImplicit false

namespace DateTime

variable {t u c : DateTime}

/-! ## Later seconds -/

/-- The beginning of an ordinary second is the beginning of its second. -/
theorem truncate_of_whole (whole : t.nano = 0) : t.truncate = t := by
  refine eq_of_unixSeconds_eq rfl ?_
  rw [whole, truncate_nano]
  simp only [inLeapSecond, whole]
  decide

/-- A later second is one of a larger number, or the leap second that follows an ordinary one. -/
theorem truncate_lt_truncate_iff : t.truncate < u.truncate ↔ t.unixSeconds < u.unixSeconds ∨
    t.unixSeconds = u.unixSeconds ∧ t.inLeapSecond = false ∧ u.inLeapSecond = true := by
  change t.truncate.rank < u.truncate.rank ↔ _
  rw [rank_eq, rank_eq, unixSeconds_truncate, unixSeconds_truncate]
  simp only [truncate, inLeapSecond, decide_eq_true_eq, decide_eq_false_iff_not]
  split <;> split <;> simp only [nanosPerSecond] at * <;> omega

/-- Of what lies in later seconds, that in the leap second that follows comes before the beginning
of the next ordinary second, and nothing else. -/
theorem lt_next_iff_of_later (next : c.unixSeconds = t.unixSeconds + 1) (whole : c.nano = 0)
    (later : t.truncate < u.truncate) :
    u < c ↔ u.inLeapSecond = true ∧ u.unixSeconds = t.unixSeconds := by
  constructor
  · intro before
    have upTo : u.unixSeconds ≤ t.unixSeconds := by
      by_contra beyond
      exact absurd before (not_lt.mpr (le_of_unixSeconds_le whole (by omega)))
    rcases truncate_lt_truncate_iff.mp later with larger | ⟨same, _, leap⟩
    · omega
    · exact ⟨leap, same.symm⟩
  · intro inside
    exact lt_of_unixSeconds_lt (by omega)

/-- The beginning of the next second is no later than what lies in a later second, leap seconds
apart. -/
theorem le_of_later_second (next : c.unixSeconds = t.unixSeconds + 1) (whole : c.nano = 0)
    (ordinary : u.inLeapSecond = false) (later : t.truncate < u.truncate) : c ≤ u := by
  rw [← not_lt, lt_next_iff_of_later next whole later, ordinary]
  exact fun leap => absurd leap.1 Bool.false_ne_true

/-- What is not later than a date-time is before the beginning of the next second, leap seconds
also. -/
theorem lt_of_next_second (next : c.unixSeconds = t.unixSeconds + 1) (before : u ≤ t) : u < c := by
  refine lt_of_unixSeconds_lt ?_
  have second := unixSeconds_le_of_le before
  omega

/-! ## The end of the supported range -/

/-- The last second of the supported range. -/
def lastSecond : Int := (95026236 + 1) * 86400 - 1

theorem nextSecond?_eq_none_iff : t.nextSecond? = none ↔ lastSecond ≤ t.unixSeconds := by
  constructor
  · intro without
    by_contra early
    have low := t.unixSeconds_bounds.1
    simp only [lastSecond] at early
    obtain ⟨u, next⟩ : ∃ u, t.nextSecond? = some u :=
      Instant.exists_ofUnixSeconds (by decide) (by omega) (by omega)
    rw [next] at without
    cases without
  · intro late
    cases next : t.nextSecond? with
    | none => rfl
    | some u =>
        have second := (nextSecond?_eq_some next).1
        have high := u.unixSeconds_bounds.2
        simp only [lastSecond] at late
        omega

/-- A later date-time does not have an earlier next second. -/
theorem nextSecond?_mono {n m : Instant} (ht : t.nextSecond? = some n) (hu : u.nextSecond? = some m)
    (le : t ≤ u) : n ≤ m := by
  obtain ⟨second, whole⟩ := nextSecond?_eq_some ht
  obtain ⟨later, _⟩ := nextSecond?_eq_some hu
  have upTo := unixSeconds_le_of_le le
  exact le_of_unixSeconds_le whole (by omega)

theorem exists_nextSecond (early : t.unixSeconds < lastSecond) : ∃ n, t.nextSecond? = some n := by
  rw [← Option.ne_none_iff_exists']
  intro without
  exact absurd (nextSecond?_eq_none_iff.mp without) (Int.not_le.mpr early)

end DateTime

/-! ## Watches after a version -/

namespace WatchPlan

variable {args : SearchArgs} {includes : BugInfo → Bool} {config : WatchConfig}
  {version : ResourceVersion} {plan : WatchPlan}

theorem start_of_after? (opened : after? args includes config version = some plan) :
    version.nextVisible? = some plan.start := by
  obtain ⟨start, visible, rfl⟩ := Option.map_eq_some_iff.mp opened
  exact visible

theorem includes_of_after? (opened : after? args includes config version = some plan) :
    plan.includes = includes := by
  obtain ⟨start, _, rfl⟩ := Option.map_eq_some_iff.mp opened
  rfl

theorem capacity_pos_of_after? (opened : after? args includes config version = some plan) :
    0 < plan.capacity := by
  obtain ⟨start, _, rfl⟩ := Option.map_eq_some_iff.mp opened
  exact lt_of_lt_of_le Nat.one_pos (le_max_left _ _)

end WatchPlan

/-- A feed plans its watches after the version that the token in the options denotes. -/
theorem Feed.plan_of_after? {feed : Feed} {options : ListOptions} {version : ResourceVersion}
    {plan : WatchPlan} (token : ResourceVersion.parse (options.version.getD "") = .ok version)
    (opened : WatchPlan.after? (feed.argsFor options) feed.includes feed.config version =
      some plan) : feed.plan options = .ok plan := by
  obtain ⟨start, visible, rfl⟩ := Option.map_eq_some_iff.mp opened
  have from_start : Feed.startAfter version = start := by
    rw [startAfter, visible, Option.getD_some]
  rw [Feed.plan, token, ← from_start]
  rfl

/-! ## The next visible second -/

namespace ResourceVersion

variable {v w n m : ResourceVersion} {t : DateTime}

/-- There is a next visible second unless the version lies in the last second of the supported
range. -/
theorem nextVisible?_eq_none_iff :
    v.nextVisible? = none ↔ DateTime.lastSecond ≤ v.time.unixSeconds := by
  rw [nextVisible?, Option.map_eq_none_iff]
  exact DateTime.nextSecond?_eq_none_iff

theorem exists_nextVisible (early : v.time.unixSeconds < DateTime.lastSecond) :
    ∃ n, v.nextVisible? = some n := by
  obtain ⟨n, next⟩ := DateTime.exists_nextSecond (t := v.truncate.time.toDateTime) early
  exact ⟨⟨n⟩, by rw [nextVisible?, next]; rfl⟩

/-- A watch that resumes from a token starts at the second after the one that the token denotes. -/
theorem start_of_resumed {feed : Feed} {options : ListOptions} {plan : WatchPlan}
    (resumed : options.version = some t.display) (planned : feed.plan options = .ok plan) :
    t.spelled.nextSecond? = some plan.start.time := by
  have token := parse_display_spelled t
  have read : parse (options.version.getD "") = parse t.display := by
    rw [resumed, Option.getD_some]
  by_cases year : 0 ≤ t.date.year ∧ t.date.year ≤ 9999
  · rw [if_pos year, ← read] at token
    have early : t.spelled.unixSeconds < DateTime.lastSecond := by
      have day := Date.lt_of_year_le (t.date_spelled ▸ year.2)
      have second := t.spelled.second_lt
      simp only [DateTime.lastSecond, DateTime.unixSeconds, secondsPerDay] at *
      omega
    obtain ⟨n, visible⟩ := exists_nextVisible (v := ⟨t.spelled.truncate⟩) early
    have opened : WatchPlan.after? (feed.argsFor options) feed.includes feed.config
        ⟨t.spelled.truncate⟩ = some (feed.planAt options n) := by
      rw [WatchPlan.after?, visible, Option.map_some, Feed.planAt]
    rw [Feed.plan_of_after? token opened] at planned
    cases planned
    rw [nextVisible?, Option.map_eq_some_iff] at visible
    obtain ⟨next, found, rfl⟩ := visible
    exact found
  · rw [if_neg year, ← read] at token
    rw [Feed.plan, token] at planned
    cases planned

/-- **The next visible second is the first one that a version has not covered, but for the leap
second that may follow.** Let a date-time lie before the last second of the supported range. The
version of it has a next visible second, which comes after it, is a whole second, and is no later
than that of any later version. Of what lies in later seconds than that of the version, only what
lies in the leap second that directly follows comes before it. A watch that resumes from the token
of the version starts there; but if the version lies in a leap second within a minute, its token
names the second after that, and the watch starts a second later. -/
theorem first_second_uncovered (early : t.unixSeconds < DateTime.lastSecond) :
    ∃ n : Instant, t.truncate.nextSecond? = some n ∧ t < n.toDateTime ∧ n.truncate = n ∧
      (∀ (w : DateTime) (m : Instant), w.truncate.nextSecond? = some m → t ≤ w → n ≤ m) ∧
      (∀ u : DateTime, t.truncate < u.truncate →
        (u < n.toDateTime ↔ u.inLeapSecond = true ∧ u.unixSeconds = t.unixSeconds)) ∧
      ∀ (feed : Feed) (options : ListOptions) (plan : WatchPlan),
        options.version = some t.display → feed.plan options = .ok plan →
          (t.Settled → plan.start.time = n) ∧
          (¬t.Settled → n.nextSecond? = some plan.start.time) := by
  obtain ⟨n, visible⟩ := DateTime.exists_nextSecond early
  obtain ⟨next, whole⟩ := DateTime.nextSecond?_eq_some visible
  refine ⟨n, visible, DateTime.lt_of_next_second next (le_refl t), ?_, ?_, ?_, ?_⟩
  · exact Instant.toDateTime_inj.mp (DateTime.truncate_of_whole whole)
  · intro w m later le
    exact DateTime.nextSecond?_mono (u := w) visible later le
  · intro u later
    exact DateTime.lt_next_iff_of_later next whole later
  · intro feed options plan resumed planned
    have start := start_of_resumed resumed planned
    constructor
    · intro settled
      rw [DateTime.spelled_of_settled settled, visible] at start
      exact (Option.some.inj start).symm
    · intro unsettled
      -- The token names the second that begins at `n`.
      have named := DateTime.nextSecond?_of_unsettled unsettled
      rw [visible] at named
      rw [Option.some.inj named]
      exact start

/-- Three quarters into the last second before a leap day, the first second of the leap day is the
next visible one, so a change then does not come before it. -/
theorem leap_day_uncovered :
    ∃ (v u : ResourceVersion) (n : Instant), parse "2024-02-28T23:59:59.75Z" = .ok v ∧
      parse "2024-02-29T00:00:00Z" = .ok u ∧ v.time.unixSeconds < DateTime.lastSecond ∧
      v.nextVisible? = some ⟨n⟩ ∧ v.time < n ∧ v.time.truncate < u.time.truncate ∧
      ¬u.time < n := by
  obtain ⟨v, u, spelled, dawn, early, later, ordinary⟩ : ∃ v u : ResourceVersion,
      parse "2024-02-28T23:59:59.75Z" = .ok v ∧ parse "2024-02-29T00:00:00Z" = .ok u ∧
        v.time.unixSeconds < DateTime.lastSecond ∧ v.time.truncate < u.time.truncate ∧
        u.time.inLeapSecond = false := ⟨_, _, rfl, rfl, by decide, by decide, rfl⟩
  obtain ⟨n, visible, after, _, _, uncovered, _⟩ := first_second_uncovered early
  refine ⟨v, u, n, spelled, dawn, early, congrArg (Option.map mk) visible, after, later, ?_⟩
  intro before
  have leap := ((uncovered u.time.toDateTime later).mp before).1
  rw [ordinary] at leap
  cases leap

/-- The next visible second after 23:59:59 is midnight, and the leap second 23:59:60, which is a
later second, comes before it. So does the leap second after 08:59:50 before 08:59:51. -/
theorem leap_second_passed_over :
    (∃ v n u : ResourceVersion, parse "2016-12-31T23:59:59Z" = .ok v ∧
      parse "2016-12-31T23:59:60Z" = .ok u ∧ v.time.unixSeconds + 2 ≤ DateTime.lastSecond ∧
      v.time.truncate < u.time.truncate ∧ v.nextVisible? = some n ∧ ¬n.time ≤ u.time) ∧
    ∃ v n : ResourceVersion, parse "2024-01-01T08:59:50Z" = .ok v ∧
      v.time.unixSeconds + 2 ≤ DateTime.lastSecond ∧
      v.time.toDateTime.truncate < DateTime.withinMinute.truncate ∧ v.nextVisible? = some n ∧
      ¬n.time.toDateTime ≤ DateTime.withinMinute :=
  ⟨⟨_, _, _, rfl, rfl, by decide, by decide, rfl, by decide⟩,
    ⟨_, _, rfl, by decide, by decide, rfl, by decide⟩⟩

end ResourceVersion

end BugFeed
