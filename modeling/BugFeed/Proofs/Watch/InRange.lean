import BugFeed.Proofs.Informer.Opening
import BugFeed.Proofs.Time.Range

/-!
# Date operations of a watch stay in the supported range

Comparing instants and writing their text have a result for all of them. Four operations of a watch
could have none. To cut an instant to its second is to take a part of that second away, which never
leaves the second (`Instant.earlier?_part`). The time from one instant to another is never too long
(`Instant.since?_eq`), and whether the interval can be added to the first second of a watch is asked
before it is (`WatchPlan.firstDelay?_eq`).

The fourth is the second that is added to the version from which a watch goes on. There is none after
the last second of the range, and an answer may well bring that. But a watch gets its version from a
token, and the strict form accepts no token that is so late (`ResourceVersion.parse_display_cases`).
So every session starts at a second in the range (`Session.DatesInRange`).
-/

namespace BugFeed

set_option autoImplicit false

/-! ## Operations that could leave the range -/

namespace Instant

/-- Taking away the part of the second that has passed leaves the beginning of the second, at the
end of the range and in leap seconds also. -/
theorem earlier?_part (t : Instant) : t.earlier? (t.nano % nanosPerSecond) = some t.truncate := by
  have whole : t.nano - t.nano % nanosPerSecond = t.truncate.nano := by
    have bound := t.nano_lt
    simp only [truncate, DateTime.truncate]
    split <;> simp only [nanosPerSecond] at * <;> omega
  have made : make? t.truncate.day t.truncate.second t.truncate.nano = some t.truncate :=
    dif_pos ⟨⟨t.day_ge, t.day_le⟩, t.second_lt, t.truncate.nano_lt, t.truncate.leap_at_minute_end⟩
  rw [earlier?, if_pos (Nat.mod_le _ _), whole]
  exact made

/-- No two instants of the range are too far apart. -/
theorem since?_eq (t present : Instant) : t.since? present = some (t.nanosAfter present) := by
  refine if_pos ?_
  have bounds := t.unixSeconds_bounds
  have bounds' := present.unixSeconds_bounds
  have part := t.nano_lt
  have part' := present.nano_lt
  simp only [nanosAfter, longestNanos, UInt64.size, nanosPerSecond] at *
  omega

/-- The last instant of the supported range. -/
def last : Instant where
  day := 95026236
  second := 86399
  nano := 999999999
  day_ge := by decide
  day_le := by decide
  second_lt := by decide
  nano_lt := by decide
  leap_at_minute_end := by decide

/-- The beginning of the next ordinary second is a second later than that of the present one. -/
theorem add?_second (t : Instant) : t.truncate.add? ⟨1, 0⟩ = t.truncate.nextSecond? := by
  have whole : t.truncate.nano % nanosPerSecond + 0 = 0 := by
    simp only [truncate, DateTime.truncate]
    split <;> rfl
  rw [add?, if_neg (by decide), if_neg (fun inside => absurd inside.2.1 Nat.one_ne_zero), whole]
  exact congrArg (ofUnixSeconds? · 0) (Int.add_zero _)

end Instant

namespace ResourceVersion

/-- The next visible second is a second after the beginning of that of the version. -/
theorem add?_second (v : ResourceVersion) : v.truncate.add? ⟨1, 0⟩ = v.nextVisible? :=
  congrArg (Option.map mk) v.time.add?_second

/-- **There is a second after the version of every token.** -/
theorem exists_nextVisible_of_parse {token : String} {v : ResourceVersion}
    (accepted : parse token = .ok v) : ∃ n, v.nextVisible? = some n := by
  have day := (day_of_parse accepted).2
  have second := v.time.second_lt
  refine exists_nextVisible ?_
  simp only [DateTime.lastSecond, DateTime.unixSeconds, secondsPerDay] at *
  omega

/-- A version is read back from its token as the beginning of its second, and there is a second after
it. Otherwise its token is refused. -/
theorem parse_display_cases (v : ResourceVersion) :
    (parse v.display = .ok v.truncate ∧ ∃ n, v.nextVisible? = some n) ∨
      parse v.display = .error ⟨v.display, .invalid⟩ := by
  by_cases written : v.Written
  · have accepted := parse_display written.low written.high
    -- The next visible second is that of the beginning of the second also.
    exact .inl ⟨accepted, exists_nextVisible_of_parse (v := v.truncate) accepted⟩
  · exact .inr (parse_display_of_signed fun year => written ⟨year.1, year.2⟩)

end ResourceVersion

/-! ## Sessions -/

/-- An equation between functions: at a plan, the sides would be compared by computing the longest
length. -/
theorem WatchPlan.firstDelay_def : WatchPlan.firstDelay = fun plan present =>
    match plan.start.add? (.ofMillis plan.interval) with
    | some t => (t.nanosFrom present + 999999) / 1000000
    | none => plan.interval := rfl

theorem WatchPlan.firstDelay?_eq (plan : WatchPlan) (present : Instant) :
    plan.firstDelay? present = some (plan.firstDelay present) := by
  rw [firstDelay?, firstDelay_def]
  beta_reduce
  generalize plan.start.add? (.ofMillis plan.interval) = later
  cases later with
  | none => rfl
  | some t =>
      rw [Option.elim_some, t.time.since?_eq, Option.map_some]
      rfl

/-- A session whose dates are in range: it starts a second after the beginning of the second of an
accepted token, and there is a delay before its first search, whenever that is asked for. -/
structure Session.DatesInRange (s : Session) : Prop where
  start : ∃ token v, ResourceVersion.parse token = .ok v ∧
    v.truncate.add? ⟨1, 0⟩ = some s.plan.start
  delay : ∀ present, s.plan.firstDelay? present = some (s.plan.firstDelay present)

namespace Session

theorem datesInRange_start {feed : Feed} {options : ListOptions} {plan : WatchPlan}
    (planned : feed.plan options = .ok plan) (now : Nat) (present : Instant) :
    (start now present plan).DatesInRange where
  start := by
    obtain ⟨-, -, v, accepted, begins⟩ := Informer.plan_cases planned
    obtain ⟨n, visible⟩ := ResourceVersion.exists_nextVisible_of_parse accepted
    refine ⟨_, v, accepted, ?_⟩
    change v.truncate.add? ⟨1, 0⟩ = some plan.start
    rw [v.add?_second, begins, Feed.startAfter, visible, Option.getD_some]
  delay := plan.firstDelay?_eq

theorem DatesInRange.of_plan {s t : Session} (inRange : s.DatesInRange) (same : t.plan = s.plan) :
    t.DatesInRange := by
  obtain ⟨start, delay⟩ := inRange
  exact ⟨same ▸ start, same ▸ delay⟩

/-- **A session that is opened after a token has its dates in range, whatever happens to it.** -/
theorem datesInRange_of_run {feed : Feed} {options : ListOptions} {now : Nat} {present : Instant}
    {s t : Session} {cues : List Cue} (opened : feed.watch options now present = .ok s)
    (run : s.run? cues = some t) : t.DatesInRange := by
  rcases Informer.watch_cases feed options now present with
    ⟨plan, planned, -, watched⟩ | ⟨fault, refused⟩ | refused
  · rw [watched] at opened
    cases opened
    exact (datesInRange_start planned now present).of_plan (plan_of_run run)
  · rw [refused] at opened
    cases opened
  · rw [refused] at opened
    cases opened

end Session

end BugFeed
