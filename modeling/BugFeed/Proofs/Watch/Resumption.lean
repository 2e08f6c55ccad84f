import BugFeed.Proofs.Watch.Delivery

/-!
# Resuming after a session

A consumer that has drained a session watches on from the latest change that it was handed, or
from where the session started if it was handed none (`Session.resumption`). A new session begins
at the second after this version, so the old one must not have fetched a change of that second or
of an earlier one and kept it to itself.

A batch is broken off only between two seconds, and what remains of it lies after all that was
handed over (`Handing.exists_second_between`). What is lost to the consumer lies in the second of
the cutoff of a poll that handed nothing over (`unseen_after_resumption`): such a poll may have
been skipped after another one moved the watermark to that second (`skipped_before_resumption`).
-/

namespace BugFeed

set_option autoImplicit false

/-! ## What was handed over -/

/-- The changes that a poll handed over. -/
def Poll.handed (p : Poll) : List BugInfo := p.events.filterMap fun e => e.bug?.map Bug.info

/-- The changes that a session handed over. -/
def Session.handed (s : Session) : List BugInfo := s.polls.flatMap Poll.handed

/-- The version from which the consumer of a session watches on that was opened after `version`:
the latest change that was handed over, or `version` if there was none. -/
def Session.resumption (s : Session) (version : ResourceVersion) : ResourceVersion :=
  ((latestChange? s.handed).map ResourceVersion.mk).getD version

/-- The events of some changes tell of just these. -/
theorem Poll.handed_eq {plan : WatchPlan} {p : Poll} {changes : List Bug}
    (events : p.events = changes.map plan.eventOf) : p.handed = changes.map Bug.info := by
  have tells : (fun e : WatchEvent => e.bug?.map Bug.info) ∘ plan.eventOf = some ∘ Bug.info := by
    funext b
    simp only [Function.comp_apply, WatchPlan.bug?_eventOf, Option.map_some]
  rw [handed, events, List.filterMap_map, tells, List.filterMap_eq_map]

/-- The version to watch on from lies in no later second than all that was handed over and the
version before. -/
theorem Session.unixSeconds_resumption_le {s : Session} {version : ResourceVersion} {second : Int}
    (before : version.time.unixSeconds ≤ second)
    (handed : ∀ f ∈ s.handed, f.lastChange.unixSeconds ≤ second) :
    (s.resumption version).time.unixSeconds ≤ second := by
  rw [resumption]
  cases latest : latestChange? s.handed with
  | none => exact before
  | some t =>
      obtain ⟨f, member, same⟩ := exists_latestChange latest
      rw [Option.map_some, Option.getD_some, ← same]
      exact handed f member

/-! ## How far the polls have come -/

/-- A poll hands over nothing after the watermark that it leaves, which is not before its
cutoff. -/
theorem Concluded.upTo {plan : WatchPlan} {p : Poll} {after : ResourceVersion}
    (concluded : Concluded plan p after) :
    p.cutoff.time ≤ after.time ∧ ∀ f ∈ p.handed, f.lastChange ≤ after.time := by
  cases concluded with
  | empty nothing =>
      refine ⟨le_refl _, ?_⟩
      intro f member
      cases member
  | skipped latest stale =>
      refine ⟨le_refl _, ?_⟩
      intro f member
      cases member
  | ok latest fresh =>
      refine ⟨le_of_lt (ResourceVersion.isAfter_iff.mp fresh), ?_⟩
      intro f member
      rw [Poll.handed_eq rfl] at member
      obtain ⟨b, inBatch, rfl⟩ := List.mem_map.mp member
      obtain ⟨f, found, _, rfl, _⟩ := (plan.mem_batch).mp inBatch
      exact SearchResponse.le_latestChange latest found

/-- The watermark after some polls is not before the start, nor before anything that they handed
over. -/
theorem Polled.upTo {plan : WatchPlan} {polls : List Poll} {watermark : ResourceVersion}
    (polled : Polled plan polls watermark) :
    plan.start.time ≤ watermark.time ∧
      ∀ p ∈ polls, ∀ f ∈ p.handed, f.lastChange ≤ watermark.time := by
  induction polled with
  | nil =>
      refine ⟨le_refl _, ?_⟩
      intro p member
      cases member
  | cons _ last ih =>
      obtain ⟨forward, handed⟩ := last.upTo
      refine ⟨le_trans ih.1 forward, ?_⟩
      intro p member f inside
      rcases List.mem_cons.mp member with rfl | member
      · exact handed f inside
      · exact le_trans (ih.2 p member f inside) forward

/-- Polls that left the watermark at the start handed nothing over. -/
theorem Polled.handed_eq_nil {plan : WatchPlan} {polls : List Poll} {watermark : ResourceVersion}
    (polled : Polled plan polls watermark) (unmoved : watermark.time ≤ plan.start.time) :
    ∀ p ∈ polls, p.handed = [] := by
  induction polled with
  | nil =>
      intro p member
      cases member
  | cons earlier last ih =>
      intro p member
      rcases List.mem_cons.mp member with rfl | member
      · cases last with
        | empty nothing => rfl
        | skipped latest stale => rfl
        | ok latest fresh =>
            have moved := lt_of_le_of_lt earlier.upTo.1 (ResourceVersion.isAfter_iff.mp fresh)
            exact absurd unmoved (not_le.mpr moved)
      · exact ih (le_trans last.upTo.1 unmoved) p member

/-- **Where a batch is broken off, a second ends.** All that was handed over lies in seconds before
those of all that remains, if anything of the batch was handed over at all. -/
theorem Handing.exists_second_between {plan : WatchPlan} {cutoff next : ResourceVersion}
    {found : SearchResponse} {done rest : List Bug} {b : Bug}
    (handing : Handing plan cutoff found done (b :: rest) next)
    (ordinary : ∀ f ∈ found.bugs, f.lastChange.inLeapSecond = false)
    (whole : lastSecond done ≠ some b.lastChange.truncate) (begun : done ≠ []) :
    ∃ second : Int, cutoff.time.unixSeconds ≤ second ∧
      (∀ a ∈ done, a.lastChange.unixSeconds ≤ second) ∧
      ∀ c ∈ b :: rest, second < c.lastChange.unixSeconds := by
  obtain ⟨earlier, last, rfl⟩ := (List.eq_nil_or_concat done).resolve_left begun
  rw [List.concat_eq_append] at *
  obtain ⟨upToLast, border, fromFirst⟩ := plan.border_of_split handing.split
  have inBatch : ∀ c, c ∈ (earlier ++ [last]) ++ b :: rest →
      c.lastChange.inLeapSecond = false ∧ cutoff.time ≤ c.lastChange := by
    intro c member
    rw [← handing.split] at member
    obtain ⟨f, inside, _, rfl, late⟩ := (plan.mem_batch).mp member
    exact ⟨ordinary f inside, late⟩
  have lastIn : last ∈ (earlier ++ [last]) ++ b :: rest := by simp
  have firstIn : b ∈ (earlier ++ [last]) ++ b :: rest := by simp
  have apart : last.lastChange.unixSeconds ≠ b.lastChange.unixSeconds := by
    intro same
    rw [lastSecond_append] at whole
    exact whole (congrArg some
      ((Instant.truncate_eq_iff (inBatch last lastIn).1 (inBatch b firstIn).1).mpr same))
  have ahead : last.lastChange.unixSeconds ≤ b.lastChange.unixSeconds :=
    DateTime.unixSeconds_le_of_le border
  refine ⟨last.lastChange.unixSeconds, DateTime.unixSeconds_le_of_le (inBatch last lastIn).2, ?_, ?_⟩
  · exact fun a member => DateTime.unixSeconds_le_of_le (upToLast a member)
  · intro c member
    have later := DateTime.unixSeconds_le_of_le (fromFirst c member)
    omega

/-! ## What is lost -/

/-- What a poll that came to its end fetched but did not hand over changed at its cutoff, and the
poll was skipped. -/
theorem Concluded.skipped_of_unseen {plan : WatchPlan} {p : Poll} {after : ResourceVersion}
    (concluded : Concluded plan p after) {found : SearchResponse}
    (answered : p.answer = some (.ok found)) {b : BugInfo} (member : b ∈ found.bugs)
    (shown : plan.includes b = true) (late : p.cutoff.time ≤ b.lastChange)
    (unseen : plan.eventOf (.ofInfo b) ∉ p.events) :
    p.outcome = some .skipped ∧ b.lastChange = p.cutoff.time := by
  rcases concluded.handed_or_withheld answered member shown late with seen | ⟨skipped, _, same, _⟩
  · exact absurd seen unseen
  · exact ⟨skipped, same⟩

/-- A shown bug that a broken batch did not hand over is among what remains of it. -/
theorem Handing.mem_rest {plan : WatchPlan} {cutoff next : ResourceVersion}
    {found : SearchResponse} {done rest : List Bug}
    (handing : Handing plan cutoff found done rest next) {b : BugInfo} (inside : b ∈ found.bugs)
    (shown : plan.includes b = true) (late : cutoff.time ≤ b.lastChange)
    (unseen : plan.eventOf (.ofInfo b) ∉ done.map plan.eventOf) : Bug.ofInfo b ∈ rest := by
  have inBatch : Bug.ofInfo b ∈ plan.batch cutoff found :=
    (plan.mem_batch).mpr ⟨b, inside, shown, rfl, late⟩
  rw [handing.split] at inBatch
  rcases List.mem_append.mp inBatch with seen | remains
  · exact absurd (List.mem_map_of_mem seen) unseen
  · exact remains

/-- When a batch is broken off, what it keeps lies in a later second than all that the session
handed over; or it lies in the second of the cutoff, to which an earlier poll has moved the
watermark, and nothing of the batch was handed over. -/
theorem Handing.exists_second_before {plan : WatchPlan} {cutoff next : ResourceVersion}
    {found : SearchResponse} {done rest : List Bug} {first : Bug} {earlier : List Poll}
    (handing : Handing plan cutoff found done (first :: rest) next)
    (polled : Polled plan earlier cutoff)
    (ordinary : ∀ f ∈ found.bugs, f.lastChange.inLeapSecond = false)
    (whole : lastSecond done ≠ some first.lastChange.truncate) {b : Bug}
    (remains : b ∈ first :: rest) (late : cutoff.time ≤ b.lastChange) :
    ∃ second : Int, plan.start.time.unixSeconds ≤ second + 1 ∧
      (∀ p ∈ Poll.handing plan cutoff found done :: earlier, ∀ f ∈ p.handed,
        f.lastChange.unixSeconds ≤ second) ∧
      (second < b.lastChange.unixSeconds ∨
        (done = [] ∧ plan.start.time < cutoff.time ∧
          b.lastChange.unixSeconds = cutoff.time.unixSeconds)) := by
  obtain ⟨started, handed⟩ := polled.upTo
  have hstart := DateTime.unixSeconds_le_of_le started
  have hlate := DateTime.unixSeconds_le_of_le late
  by_cases begun : done = []
  · subst begun
    rcases lt_or_ge plan.start.time cutoff.time with moved | unmoved
    · refine ⟨cutoff.time.unixSeconds, by omega, ?_, ?_⟩
      · intro p member f inside
        rcases List.mem_cons.mp member with rfl | member
        · cases inside
        · exact DateTime.unixSeconds_le_of_le (handed p member f inside)
      · rcases Int.lt_or_eq_of_le hlate with later | same
        · exact .inl later
        · exact .inr ⟨rfl, moved, same.symm⟩
    · -- Nothing was handed over at all: even the second before the start bounds it.
      refine ⟨plan.start.time.unixSeconds - 1, by omega, ?_, ?_⟩
      · intro p member f inside
        rcases List.mem_cons.mp member with rfl | member
        · cases inside
        · rw [polled.handed_eq_nil unmoved p member] at inside
          cases inside
      · exact .inl (by omega)
  · obtain ⟨second, hcutoff, hdone, hrest⟩ := handing.exists_second_between ordinary whole begun
    refine ⟨second, by omega, ?_, .inl (hrest b remains)⟩
    intro p member f inside
    rcases List.mem_cons.mp member with rfl | member
    · rw [Poll.handed_eq rfl] at inside
      obtain ⟨a, among, rfl⟩ := List.mem_map.mp inside
      exact hdone a among
    · exact Int.le_trans (DateTime.unixSeconds_le_of_le (handed p member f inside)) hcutoff

namespace Session

/-- **A session that was stopped or expired keeps nothing to itself that a new one would miss, but
in the second of a cutoff.** A shown bug of an answer that changed at the cutoff of its poll or
later and was not handed over lies at or after the first instant that a session watches which is
opened after the last change that was handed over; or its poll was skipped and the bug changed at
the cutoff; or its poll was broken off before it handed anything over, and the bug changed in the
second of the cutoff, to which an earlier poll had moved the watermark. -/
theorem unseen_after_resumption {now : Nat} {present : Instant} {plan : WatchPlan} {s : Session}
    {cues : List Cue} {version : ResourceVersion} (start : version.nextVisible? = some plan.start)
    (run : (Session.start now present plan).run? cues = some s) (ended : s.phase = .ended)
    (attached : s.attached = true)
    (ordinary : ∀ p ∈ s.polls, ∀ found, p.answer = some (.ok found) →
      ∀ b ∈ found.bugs, b.lastChange.inLeapSecond = false)
    {p : Poll} (member : p ∈ s.polls) {found : SearchResponse}
    (answered : p.answer = some (.ok found)) {b : BugInfo} (inside : b ∈ found.bugs)
    (shown : plan.includes b = true) (late : p.cutoff.time ≤ b.lastChange)
    (unseen : ∀ q ∈ s.polls, plan.eventOf (.ofInfo b) ∉ q.events) :
    (∃ next, (s.resumption version).nextVisible? = some next ∧ next.time ≤ b.lastChange) ∨
      (p.outcome = some .skipped ∧ b.lastChange = p.cutoff.time) ∨
      (p.outcome = none ∧ p.events = [] ∧ plan.start.time < p.cutoff.time ∧
        b.lastChange.unixSeconds = p.cutoff.time.unixSeconds) := by
  have same : s.plan = plan := plan_of_run run
  have told := told_of_run run
  rw [Told, ended, same, attached] at told
  obtain ⟨_, broken⟩ := told
  have earlier_skipped : ∀ {polls : List Poll} {watermark : ResourceVersion},
      Polled plan polls watermark → p ∈ polls →
        p.outcome = some .skipped ∧ b.lastChange = p.cutoff.time := by
    intro polls watermark polled earlier
    obtain ⟨after, concluded⟩ := polled.concluded earlier
    exact concluded.skipped_of_unseen answered inside shown late (unseen p member)
  generalize hpolls : s.polls = polls at *
  cases broken with
  | between polled => exact .inr (.inl (earlier_skipped polled member))
  | unanswered polled =>
      rcases List.mem_cons.mp member with rfl | earlier
      · cases answered
      · exact .inr (.inl (earlier_skipped polled earlier))
  | failed polled =>
      rcases List.mem_cons.mp member with rfl | earlier
      · cases answered
      · exact .inr (.inl (earlier_skipped polled earlier))
  | @cut _ _ _ _ done rest first polled handing whole =>
      rcases List.mem_cons.mp member with rfl | earlier
      · cases answered
        have remains := handing.mem_rest inside shown late (unseen _ member)
        obtain ⟨second, started, handed, later | ⟨nothing, moved, here⟩⟩ :=
          handing.exists_second_before polled (ordinary _ member _ rfl) (whole rfl) remains late
        · have before : version.time.unixSeconds ≤ second := by
            have hstart := (ResourceVersion.nextVisible?_eq_some start).1
            omega
          have seen : ∀ f ∈ s.handed, f.lastChange.unixSeconds ≤ second := by
            intro f hf
            rw [Session.handed, hpolls] at hf
            obtain ⟨q, hq, hf⟩ := List.mem_flatMap.mp hf
            exact handed q hq f hf
          have le := unixSeconds_resumption_le before seen
          exact .inl (ResourceVersion.exists_nextVisible_le (Int.lt_of_le_of_lt le later))
        · subst nothing
          exact .inr (.inr ⟨rfl, rfl, moved, here⟩)
      · exact .inr (.inl (earlier_skipped polled earlier))

/-- A bug whose second a stop cut off is seen by the session that is opened next. -/
theorem rest_seen_after_resumption :
    ∃ s next, (start 0 .epoch (.sample 6)).run?
        [.proceed 7000, .answer 7000 (.ok ⟨[.sample 2 1 8, .sample 1 0 9]⟩), .proceed 7000,
          .stop 7000, .proceed 7000] = some s ∧
      s.phase = .ended ∧ s.attached = true ∧ s.handed = [.sample 2 1 8] ∧
      (s.resumption ⟨.onFirstDay 5⟩).nextVisible? = some next ∧ next.time ≤ .onFirstDay 9 := by
  have batch : (WatchPlan.sample 6).batch ⟨.onFirstDay 6⟩ ⟨[.sample 2 1 8, .sample 1 0 9]⟩ =
      [.ofInfo (.sample 2 1 8), .ofInfo (.sample 1 0 9)] :=
    WatchPlan.batch_of_pairwise (by decide)
  have latest : (SearchResponse.mk [.sample 2 1 8, .sample 1 0 9]).latestChange? =
      some ⟨.onFirstDay 9⟩ := rfl
  have heard := follow?_accepted (firstSearch (.sample 6) 7000) 7000 rfl rfl latest (by decide)
    batch
  have run : (start 0 .epoch (.sample 6)).run? _ = some _ :=
    (run?_cons firstSearch_reached _).trans ((run?_cons heard
      [.proceed 7000, .stop 7000, .proceed 7000]).trans rfl)
  let p : Poll := .handing (.sample 6) ⟨.onFirstDay 6⟩ ⟨[.sample 2 1 8, .sample 1 0 9]⟩
    [.ofInfo (.sample 2 1 8)]
  obtain ⟨s, run, ended, attached, polls⟩ : ∃ s, _ = some s ∧ s.phase = .ended ∧
      s.attached = true ∧ s.polls = [p] := ⟨_, run, rfl, rfl, rfl⟩
  have start : (ResourceVersion.mk (.onFirstDay 5)).nextVisible? =
      some (WatchPlan.sample 6).start := rfl
  have member : p ∈ s.polls := by
    rw [polls]
    exact List.mem_cons_self
  have ordinary : ∀ q ∈ s.polls, ∀ found, q.answer = some (.ok found) →
      ∀ b ∈ found.bugs, b.lastChange.inLeapSecond = false := by
    rw [polls]
    intro q hq found answered
    cases List.mem_singleton.mp hq
    cases answered
    decide
  have unseen : ∀ q ∈ s.polls,
      (WatchPlan.sample 6).eventOf (.ofInfo (.sample 1 0 9)) ∉ q.events := by
    rw [polls]
    intro q hq
    cases List.mem_singleton.mp hq
    decide
  have handed : s.handed = [.sample 2 1 8] := by
    rw [Session.handed, polls]
    rfl
  rcases unseen_after_resumption start run ended attached ordinary member rfl
    (b := .sample 1 0 9) (by decide) rfl (by decide) unseen with
    ⟨next, seen, le⟩ | ⟨skipped, _⟩ | ⟨_, none_handed, _⟩
  · exact ⟨s, next, run, ended, attached, handed, seen, le⟩
  · cases skipped
  · cases none_handed

/-- A bug that a skipped poll kept to itself is not seen by the session that is opened next. -/
theorem skipped_before_resumption :
    ∃ s p next, (start 0 .epoch (.sample 6)).run?
        [.proceed 7000, .answer 7000 (.ok ⟨[.sample 2 1 8]⟩), .proceed 7000, .proceed 7000,
          .take 7000, .proceed 8000, .answer 8000 (.ok ⟨[.sample 2 1 8, .sample 1 0 8]⟩),
          .stop 8000, .proceed 8000] = some s ∧
      s.phase = .ended ∧ s.attached = true ∧ p ∈ s.polls ∧
      p.answer = some (.ok ⟨[.sample 2 1 8, .sample 1 0 8]⟩) ∧ p.cutoff.time = .onFirstDay 8 ∧
      s.handed = [.sample 2 1 8] ∧
      (s.resumption ⟨.onFirstDay 5⟩).nextVisible? = some next ∧ .onFirstDay 8 < next.time := by
  have batch : (WatchPlan.sample 6).batch ⟨.onFirstDay 6⟩ ⟨[.sample 2 1 8]⟩ =
      [.ofInfo (.sample 2 1 8)] :=
    WatchPlan.batch_of_pairwise (by decide)
  have latest : (SearchResponse.mk [.sample 2 1 8]).latestChange? = some ⟨.onFirstDay 8⟩ := rfl
  have heard := follow?_accepted (firstSearch (.sample 6) 7000) 7000 rfl rfl latest (by decide)
    batch
  have run : (start 0 .epoch (.sample 6)).run? _ = some _ :=
    (run?_cons firstSearch_reached _).trans ((run?_cons heard
      [.proceed 7000, .proceed 7000, .take 7000, .proceed 8000,
        .answer 8000 (.ok ⟨[.sample 2 1 8, .sample 1 0 8]⟩), .stop 8000, .proceed 8000]).trans rfl)
  exact ⟨_, _, ⟨.onFirstDay 9⟩, run, rfl, rfl, List.mem_cons_self, rfl, rfl, rfl, rfl, by decide⟩

end Session

end BugFeed
