import BugFeed.Proofs.Informer.Sessions
import BugFeed.Proofs.Watch.InRange

/-!
# Date operations of an informer stay in the supported range

The versions that an informer comes to are times of changes, and those may be anywhere in the
supported range. It goes on from a version only through the token of it, so that its watches start
where others do that are opened after a token (`Session.datesInRange_start`). This holds of a watch
when it is opened and the steps of a watch keep its plan, so it holds of all watches in every run. A
version that no watch can go on from has a token that is refused, by which the informer is done; it
breaks down for no other reason than a queue that would be too long (`Whole.follow`).
-/

namespace BugFeed.Informer

set_option autoImplicit false

variable {feed : Feed} {i j : Informer} {now : Nat} {present : Instant} {args : Option SearchArgs}

/-! ## Informers that do not break down -/

/-- An informer that keeps its feed and has not broken down. -/
structure Whole (feed : Feed) (i : Informer) : Prop where
  same : i.feed = feed
  unbroken : i.isBroken = false

theorem whole_openWatch (same : i.feed = feed)
    (fits : max 1 feed.config.eventBufferSize.toNat ≤ Session.longestQueue) (now : Nat)
    (present : Instant) : Whole feed (i.openWatch now present) := by
  by_cases written : i.version.Written
  · rw [openWatch_display written (same ▸ fits)]
    exact ⟨same, rfl⟩
  · rw [openWatch_of_signed written]
    exact ⟨same, rfl⟩

theorem whole_takeOver (same : i.feed = feed)
    (fits : max 1 feed.config.eventBufferSize.toNat ≤ Session.longestQueue) (now : Nat)
    (present : Instant) (list : BugList) : Whole feed (i.takeOver now present list) := by
  rcases i.takeOver_cases now present list with ⟨version, _, taken⟩ | ⟨fault, finished⟩
  · rw [taken]
    exact whole_openWatch (by exact same) fits now present
  · rw [finished]
    exact ⟨same, rfl⟩

theorem whole_attemptFailed (same : i.feed = feed) (now : Nat) (retry : Retry) (fault : Fault) :
    Whole feed (i.attemptFailed now retry fault) := by
  rcases i.attemptFailed_cases now retry fault with ⟨next, wake, retrying⟩ | finished
  · rw [retrying]
    exact ⟨same, rfl⟩
  · rw [finished]
    exact ⟨same, rfl⟩

namespace Whole

variable (whole : i.Whole feed)
  (fits : max 1 feed.config.eventBufferSize.toNat ≤ Session.longestQueue)

include whole fits

theorem consume (now : Nat) (present : Instant) (event : WatchEvent) :
    Whole feed (i.consume now present event) := by
  rcases i.consume_cases now present event with
    ⟨b, _, absorbed⟩ | ⟨status, _, rewatched | rested⟩
  · rw [absorbed]
    exact ⟨whole.same, whole.unbroken⟩
  · rw [rewatched]
    exact whole_openWatch (by exact whole.same) fits now present
  · rw [rested]
    exact ⟨whole.same, rfl⟩

theorem act (act : Act i now present j args) : Whole feed j := by
  have same := whole.same
  cases act with
  | list =>
      rcases i.beginList_cases now present with asked | finished
      · rw [asked]
        exact ⟨same, rfl⟩
      · rw [finished]
        exact ⟨same, rfl⟩
  | timeOut => exact whole_attemptFailed same now _ _
  | retry | giveUp | drained => exact ⟨same, rfl⟩
  | @take s t event phase _ =>
      have watches : Whole feed { i with phase := .watching t } := ⟨same, rfl⟩
      exact watches.consume fits now present event
  | closed => exact whole_openWatch (by exact same) fits now present
  | watch | stop | discard | drain => exact ⟨same, rfl⟩

/-- An informer whose queue is not too long does not break down. -/
theorem follow {cue : Cue} (h : i.follow? cue = some (j, args)) : Whole feed j := by
  rcases act_of_follow h with
    ⟨now, present, act⟩ | ⟨_, _, rfl⟩ | ⟨now, present, response, _, _, rfl⟩
  · exact whole.act fits act
  · exact ⟨whole.same, whole.unbroken⟩
  · have heard := heard_answer i now present response
    generalize i.answer now present response = j at heard
    cases heard with
    | ignored => exact whole
    | list => exact whole_takeOver whole.same fits now present _
    | failed => exact whole_attemptFailed whole.same now _ _
    | watch | drain => exact ⟨whole.same, rfl⟩

end Whole

/-! ## Runs -/

theorem datesInRange_of_run {labels : Catalog String} {policy : BackoffPolicy} {stopping : Bool}
    {cues : List Cue} (run : (opened feed labels policy now stopping).run? cues = some i) :
    ∀ s ∈ i.sessions, s.DatesInRange :=
  sessions_of_run (fun _ _ _ now present planned => Session.datesInRange_start planned now present)
    (fun _ _ step inRange => inRange.of_plan step.plan) run fun _ member => by cases member

/-- **No input of a watch leads a date operation out of the supported range.**

* The version of every token lies in the years -1 to 10000, and a second can be added to its second.
* A session that is opened after a token starts at that second, and its first delay can be computed,
  whatever happens to it.
* So do all sessions of an informer in every run, and no run breaks the informer down, unless its
  queue would be too long.
* Every instant can be cut to its second, and a version is read back from its token as the beginning
  of a second after which a watch can go on, or its token is refused. -/
theorem dates_in_range :
    (∀ (token : String) (v : ResourceVersion), ResourceVersion.parse token = .ok v →
      (-1 ≤ v.time.date.year ∧ v.time.date.year ≤ 10000) ∧
        ∃ n, v.truncate.add? ⟨1, 0⟩ = some n) ∧
    (∀ (feed : Feed) (options : ListOptions) (now : Nat) (present : Instant) (s t : Session)
      (cues : List Session.Cue), feed.watch options now present = .ok s → s.run? cues = some t →
        t.DatesInRange) ∧
    (∀ (feed : Feed) (labels : Catalog String) (policy : BackoffPolicy) (now : Nat)
      (stopping : Bool) (cues : List Cue) (i : Informer),
      (opened feed labels policy now stopping).run? cues = some i →
        (∀ s ∈ i.sessions, s.DatesInRange) ∧
          (max 1 feed.config.eventBufferSize.toNat ≤ Session.longestQueue →
            i.isBroken = false)) ∧
    (∀ t : Instant, t.earlier? (t.nano % nanosPerSecond) = some t.truncate) ∧
    ∀ v : ResourceVersion,
      (ResourceVersion.parse v.display = .ok v.truncate ∧ ∃ n, v.nextVisible? = some n) ∨
        ResourceVersion.parse v.display = .error ⟨v.display, .invalid⟩ := by
  refine ⟨?_, ?_, ?_, Instant.earlier?_part, ResourceVersion.parse_display_cases⟩
  · intro token v accepted
    rw [v.add?_second]
    exact ⟨ResourceVersion.year_of_parse accepted,
      ResourceVersion.exists_nextVisible_of_parse accepted⟩
  · intro feed options now present s t cues watched run
    exact Session.datesInRange_of_run watched run
  · intro feed labels policy now stopping cues i run
    refine ⟨datesInRange_of_run run, fun fits => ?_⟩
    have begun : Whole feed (opened feed labels policy now stopping) := ⟨rfl, rfl⟩
    exact (run?_preserves (fun h whole => whole.follow fits h) run begun).unbroken

/-- A bug that changed at the last instant of the supported range. -/
def lastChanged : BugInfo := { BugInfo.sample 1 0 5 with lastChange := .last }

/-- An offset leads a token into the year 10000, and there is a second after it. A session is told of
a change at the last instant of the range, and goes on. An informer is told of the same change by its
list: no watch could go on from there, the token is refused, and the informer is done. -/
theorem last_instant_kept_out :
    (∃ v, ResourceVersion.parse "9999-12-31T23:59:59-23:59" = .ok v ∧ v.time.date.year = 10000 ∧
      ∃ n, v.truncate.add? ⟨1, 0⟩ = some n) ∧
    (∃ s t rest, ({} : Feed).watch (.ofVersion "") 0 .epoch = .ok s ∧
      s.run? [.proceed 11000, .answer 11000 (.ok ⟨[lastChanged]⟩)] = some t ∧
      t.phase = .delivering rest none ⟨.last⟩ ∧ t.DatesInRange) ∧
    ∃ i fault, (opened {} .empty {} 0 false).run?
        [.move 0 .epoch, .answer 0 .epoch (.ok ⟨[lastChanged]⟩)] = some i ∧
      i.outcome? = some (.error (.token fault)) ∧ fault.token = "+262142-12-31T23:59:59Z" ∧
      i.isBroken = false := by
  obtain ⟨tokens, sessions, informers, -, -⟩ := dates_in_range
  refine ⟨?_, ?_, ?_⟩
  · obtain ⟨v, accepted, year⟩ : ∃ v, ResourceVersion.parse "9999-12-31T23:59:59-23:59" = .ok v ∧
        v.time.date.year = 10000 := ⟨_, rfl, rfl⟩
    exact ⟨v, accepted, year, (tokens _ v accepted).2⟩
  · obtain ⟨s, t, rest, watched, run, told⟩ : ∃ s t rest,
        ({} : Feed).watch (.ofVersion "") 0 .epoch = .ok s ∧
        s.run? [.proceed 11000, .answer 11000 (.ok ⟨[lastChanged]⟩)] = some t ∧
        t.phase = .delivering rest none ⟨.last⟩ := ⟨_, _, _, rfl, rfl, rfl⟩
    exact ⟨s, t, rest, watched, run, told, sessions {} _ 0 .epoch s t _ watched run⟩
  · obtain ⟨i, fault, run, done, refused⟩ : ∃ i fault, (opened {} .empty {} 0 false).run?
        [.move 0 .epoch, .answer 0 .epoch (.ok ⟨[lastChanged]⟩)] = some i ∧
        i.outcome? = some (.error (.token fault)) ∧ fault.token = "+262142-12-31T23:59:59Z" :=
      ⟨_, _, rfl, rfl, rfl⟩
    exact ⟨i, fault, run, done, refused, (informers {} _ _ 0 false _ i run).2 (by decide)⟩

end BugFeed.Informer
