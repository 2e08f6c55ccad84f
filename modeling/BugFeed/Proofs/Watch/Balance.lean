import BugFeed.Proofs.Watch.Counters
import BugFeed.Proofs.Watch.Stream

/-!
# The balance of a session

What a session has counted is compared with what happened to it from outside. Its polls were given
the answers that it looked at (`responses_of_run`), and its consumer took the events that it handed
over. The outcome of a poll is the one that its answer calls for, unless its batch was cut
(`Poll.Settled`), which takes a stop or the end of the lifetime (`reason_of_broken_off`). So the
counters of a session that has ended, and whose consumer was there and has taken everything, balance
with the answers that it got, the events that it gave and the end of its lifetime
(`balanced_of_run`).
-/

namespace BugFeed

set_option autoImplicit false

/-- An event about a bug tells of no fault. -/
theorem WatchPlan.kind_eventOf_ne (plan : WatchPlan) (b : Bug) :
    (plan.eventOf b).kind ≠ .error := by
  rw [eventOf]
  split <;> simp [WatchEvent.kind]

namespace Poll

/-- The outcome that the answer of a poll calls for. -/
def due? (p : Poll) : Option PollOutcome :=
  match p.answer with
  | none => none
  | some (.error _) => some .error
  | some (.ok found) =>
    match found.latestChange? with
    | none => some .empty
    | some next => if next.isAfter p.cutoff then some .ok else some .skipped

/-- Whether a poll broke off before the end of the batch that it had to hand over. -/
def isCut (plan : WatchPlan) (p : Poll) : Bool :=
  p.due? = some .ok && p.events.length < (p.batch plan).length

variable {plan : WatchPlan} {p : Poll}

theorem isSome_due? (p : Poll) : p.due?.isSome = p.answer.isSome := by
  rw [due?]
  split
  · rename_i unanswered
    rw [unanswered]
    rfl
  · rename_i fault answered
    rw [answered]
    rfl
  · rename_i found answered
    rw [answered]
    split
    · rfl
    · split <;> rfl

theorem isCut_eq_false (other : p.due? ≠ some .ok) : p.isCut plan = false := by
  simp [isCut, other]

/-- A poll ended with the outcome that its answer calls for, unless it was cut. -/
def Settled (plan : WatchPlan) (p : Poll) : Prop :=
  p.outcome = if p.isCut plan then none else p.due?

/-- A poll without an answer and a poll that was cut have no outcome. -/
theorem Settled.outcome_eq_none (settled : p.Settled plan)
    (early : p.answer = none ∨ p.isCut plan = true) : p.outcome = none := by
  rw [settled]
  rcases early with unanswered | cut
  · simp [due?, unanswered]
  · simp [cut]

end Poll

section Settled

variable {plan : WatchPlan} {polls : List Poll} {p : Poll} {watermark : ResourceVersion}

theorem Poll.settled_of_due (due : p.due? = p.outcome) (whole : p.isCut plan = false) :
    p.Settled plan := by
  rw [Settled, whole, due]
  rfl

/-- A poll that came to its end did so with the outcome that its answer calls for. -/
theorem Concluded.due? (concluded : Concluded plan p watermark) :
    p.due? = p.outcome ∧ p.isCut plan = false := by
  cases concluded with
  | @empty _ found nothing =>
      have due : Poll.due? ⟨watermark, some (.ok found), [], some .empty⟩ = some .empty := by
        simp [Poll.due?, nothing]
      exact ⟨due, Poll.isCut_eq_false (by rw [due]; decide)⟩
  | @skipped _ next found latest stale =>
      have due : Poll.due? ⟨watermark, some (.ok found), [], some .skipped⟩ = some .skipped := by
        simp [Poll.due?, latest, stale]
      exact ⟨due, Poll.isCut_eq_false (by rw [due]; decide)⟩
  | ok latest fresh =>
      refine ⟨by simp [Poll.due?, latest, fresh], ?_⟩
      simp [Poll.isCut, Poll.batch]

theorem Concluded.settled (concluded : Concluded plan p watermark) : p.Settled plan :=
  Poll.settled_of_due concluded.due?.1 concluded.due?.2

/-- A poll that hands its batch over is cut as long as something of the batch remains. -/
theorem Handing.isCut {found : SearchResponse} {done rest : List Bug} {next : ResourceVersion}
    {b : Bug} (handing : Handing plan watermark found done (b :: rest) next) :
    (Poll.handing plan watermark found done).isCut plan = true := by
  have due : (Poll.handing plan watermark found done).due? = some .ok := by
    simp [Poll.due?, Poll.handing, handing.latest, handing.fresh]
  have batch : (Poll.handing plan watermark found done).batch plan = done ++ b :: rest :=
    handing.split
  rw [Poll.isCut, due, batch]
  simp [Poll.handing]

/-- The polls of a session that has left its work ended with the outcomes that their answers call
for, unless they were cut. -/
theorem BrokenOff.settled {attached : Bool} (broken : BrokenOff plan attached polls watermark)
    (member : p ∈ polls) : p.Settled plan := by
  have earlier {polls : List Poll} (polled : Polled plan polls watermark) (member : p ∈ polls) :
      p.Settled plan := (polled.concluded member).elim fun _ concluded => concluded.settled
  cases broken with
  | between polled => exact earlier polled member
  | unanswered polled =>
      rcases List.mem_cons.mp member with rfl | older
      · exact Poll.settled_of_due rfl (Poll.isCut_eq_false nofun)
      · exact earlier polled older
  | failed polled =>
      rcases List.mem_cons.mp member with rfl | older
      · exact Poll.settled_of_due rfl (Poll.isCut_eq_false nofun)
      · exact earlier polled older
  | cut polled handing =>
      rcases List.mem_cons.mp member with rfl | older
      · rw [Poll.Settled, handing.isCut]
        rfl
      · exact earlier polled older

theorem Concluded.outcome_ne_none (concluded : Concluded plan p watermark) : p.outcome ≠ none := by
  cases concluded <;> nofun

/-- If a poll has no outcome, no search has failed. -/
theorem BrokenOff.answer_ne_error {attached : Bool}
    (broken : BrokenOff plan attached polls watermark) (member : p ∈ polls)
    (early : p.outcome = none) {q : Poll} (other : q ∈ polls) (fault : TransportFault) :
    q.answer ≠ some (.error fault) := by
  have earlier {polls : List Poll} (polled : Polled plan polls watermark) (member : q ∈ polls) :
      q.answer ≠ some (.error fault) := by
    obtain ⟨after, concluded⟩ := polled.concluded member
    obtain ⟨⟨found, answered⟩, _⟩ := concluded.answered
    rw [answered]
    nofun
  cases broken with
  | between polled => exact earlier polled other
  | unanswered polled =>
      rcases List.mem_cons.mp other with rfl | older
      · nofun
      · exact earlier polled older
  | failed polled =>
      rcases List.mem_cons.mp member with rfl | older
      · cases early
      · obtain ⟨after, concluded⟩ := polled.concluded older
        exact absurd early concluded.outcome_ne_none
  | cut polled =>
      rcases List.mem_cons.mp other with rfl | older
      · nofun
      · exact earlier polled older

/-- The outcomes of some polls are those that their answers call for, without those of the polls
that were cut. -/
theorem Poll.count_outcomes (settled : ∀ p ∈ polls, p.Settled plan) (outcome : PollOutcome) :
    (gather Poll.outcome polls).count outcome =
      polls.countP fun p => p.due? = some outcome && !p.isCut plan := by
  induction polls with
  | nil => rfl
  | cons p polls ih =>
      have last : p.Settled plan := settled p List.mem_cons_self
      rw [gather_cons, List.count_append, List.countP_cons,
        ih fun q older => settled q (List.mem_cons_of_mem p older), last]
      cases cut : p.isCut plan with
      | true => simp
      | false => cases p.due? <;> simp [List.count_singleton]

/-- Every answer calls for one outcome. -/
theorem Poll.count_answers (plan : WatchPlan) (polls : List Poll) :
    (polls.countP fun p => p.isCut plan) +
        (polls.countP fun p => p.due? = some .ok && !p.isCut plan) +
        (polls.countP fun p => p.due? = some .empty && !p.isCut plan) +
        (polls.countP fun p => p.due? = some .skipped && !p.isCut plan) +
        (polls.countP fun p => p.due? = some .error && !p.isCut plan) =
      (gather answer polls).length := by
  induction polls with
  | nil => rfl
  | cons p polls ih =>
      rw [gather_cons, List.length_append, ← ih]
      simp only [List.countP_cons]
      have called : p.answer.toList.length = if p.due?.isSome then 1 else 0 := by
        rw [isSome_due?]
        cases p.answer <;> rfl
      have uncut (other : p.due? ≠ some .ok) : p.isCut plan = false := isCut_eq_false other
      rw [called]
      cases due : p.due? with
      | none => simp [uncut (by rw [due]; decide)]
      | some outcome =>
          cases outcome with
          | ok => cases p.isCut plan <;> simp <;> omega
          | empty | skipped | error =>
              simp [uncut (by rw [due]; decide)]
              omega

end Settled

namespace Session

variable {s t : Session} {now : Nat}

/-! ## What breaks a poll off -/

/-- A session whose consumer is there does not stop for want of one. -/
theorem Move.unfinished {args : Option SearchArgs} (move : Move s now t args)
    (attached : s.attached = true) (unfinished : s.signal.reason ≠ some .finished) :
    t.signal.reason ≠ some .finished := by
  cases move with
  | expire => rwa [Ne, reason_fire_eq_iff (by decide)]
  | leave => rwa [signal_leave]
  | abandon _ detached => cases attached.symm.trans detached
  | ask | conclude | deliver | report | vanish => exact unfinished

theorem unfinished_follow {cue : Cue} (h : s.follow? cue = some t)
    (unfinished : s.attached = true → s.signal.reason ≠ some .finished)
    (attached : t.attached = true) : t.signal.reason ≠ some .finished := by
  have before := attached_of_follow h attached
  cases cue with
  | expire now => exact (move_of_expire h).unfinished before (unfinished before)
  | proceed now =>
      obtain ⟨⟨u, args⟩, move, rfl⟩ := Option.map_eq_some_iff.mp h
      exact (move_of_proceed move).unfinished before (unfinished before)
  | answer now response =>
      cases h
      exact mt ((hears_answer s now response).reason_iff (by decide)).mp (unfinished before)
  | take now =>
      obtain ⟨⟨event, u⟩, taken, rfl⟩ := Option.map_eq_some_iff.mp h
      rw [(queue_of_take taken).2]
      exact unfinished before
  | stop now =>
      cases h
      exact mt (reason_fire_eq_iff (by decide)).mp (unfinished before)
  | close =>
      cases h
      cases attached
  | drop now =>
      cases h
      exact mt (reason_fire_eq_iff (by decide)).mp (unfinished before)

theorem unfinished_of_run {present : Instant} {plan : WatchPlan} {cues : List Cue}
    (run : (start now present plan).run? cues = some s) (attached : s.attached = true) :
    s.signal.reason ≠ some .finished :=
  run?_preserves (P := fun s => s.attached = true → s.signal.reason ≠ some .finished)
    (fun h unfinished => unfinished_follow h unfinished) run (fun _ => nofun) attached

/-- The faults that a session hears of in a run are among the answers that it looks at. -/
theorem failures_eq (s : Session) (cues : List Cue) :
    s.failures cues = (s.along given? cues).filterMap fun response =>
      (Note.answered response).fault? := by
  refine along_filterMap ?_ cues
  intro s cue
  cases cue with
  | answer now response =>
      by_cases looks : (s.isSearching && !s.signal.isStopped) = true
      · cases response <;> simp only [fails?, given?, looks, if_true] <;> rfl
      · cases response <;> simp only [fails?, given?, looks] <;> rfl
  | expire | proceed | take | stop | close | drop => rfl

/-- A poll without an outcome was broken off by a stop or by the end of the lifetime, if the
consumer was there. -/
theorem reason_of_broken_off {present : Instant} {plan : WatchPlan} {cues : List Cue}
    (run : (start now present plan).run? cues = some s) (ended : s.phase = .ended)
    (attached : s.attached = true) {p : Poll} (member : p ∈ s.polls) (early : p.outcome = none) :
    s.signal.reason = some .requested ∨ s.signal.reason = some .expired := by
  have lawful := lawful_of_run run
  have told := lawful.told
  rw [Told, ended] at told
  obtain ⟨stopped, broken⟩ := told
  obtain ⟨reason, known⟩ := isStopped_iff.mp stopped
  cases reason with
  | requested => exact .inl known
  | expired => exact .inr known
  | finished => exact absurd known (unfinished_of_run run attached)
  | failed =>
      have heard : ∃ fault, s.faults = [fault] := by
        rcases lawful.accounts.heard with unheard | heard
        · exact absurd unheard (lawful.accounts.failed known)
        · exact heard
      obtain ⟨fault, faults⟩ := heard
      have answers : s.faults = s.responses.filterMap fun response =>
          (Note.answered response).fault? := by
        rw [responses_of_run run, ← failures_eq]
        exact faults_of_run run
      have inside : fault ∈ s.faults := by simp [faults]
      rw [answers, List.mem_filterMap] at inside
      obtain ⟨response, given, fails⟩ := inside
      obtain ⟨q, other, answered⟩ := List.mem_filterMap.mp given
      cases response with
      | ok found => cases fails
      | error _ =>
          exact absurd answered (broken.answer_ne_error member early (List.mem_reverse.mp other) _)

/-! ## The balance -/

/-- The event that the consumer takes at a cue. -/
def takes? (s : Session) : Cue → Option WatchEvent
  | .take now => (s.take? now).map Prod.fst
  | _ => none

/-- The events that the consumer takes in a run, first one first. -/
def takings (s : Session) (cues : List Cue) : List WatchEvent := s.along takes? cues

theorem received_follow {cue : Cue} (h : s.follow? cue = some t) :
    t.received = s.received ++ (s.takes? cue).toList := by
  cases cue with
  | expire now => exact (move_of_expire h).received.trans (List.append_nil _).symm
  | proceed now =>
      obtain ⟨⟨u, args⟩, move, rfl⟩ := Option.map_eq_some_iff.mp h
      exact (move_of_proceed move).received.trans (List.append_nil _).symm
  | answer now response =>
      cases h
      exact (hears_answer s now response).quiet.received.trans (List.append_nil _).symm
  | take now =>
      obtain ⟨⟨event, u⟩, taken, rfl⟩ := Option.map_eq_some_iff.mp h
      rw [received_of_take taken, takes?, taken]
      rfl
  | stop now =>
      cases h
      exact (Quiet.fire s now .requested).received.trans (List.append_nil _).symm
  | close =>
      cases h
      exact (List.append_nil _).symm
  | drop now =>
      cases h
      exact (Quiet.fire _ now .requested).received.trans (List.append_nil _).symm

theorem received_of_run {cues : List Cue} (run : s.run? cues = some t) :
    t.received = s.received ++ s.takings cues :=
  along_of_run (P := fun _ => True) (g := received) (fun _ _ => trivial)
    (fun h _ => received_follow h) run trivial

/-- What a session that has ended has counted, if its consumer has taken all its events: that it was
opened; the events that were taken before a point of the run, where they may have been read, and
after it, where they may have been thrown away; at most one fault among them; the answers that it
looked at, each with the outcome that it calls for, but for a poll that a stop or the end of the
lifetime cut; and whether its lifetime has ended it. -/
structure Balanced (first : Session) (cues : List Cue) (s : Session) : Prop where
  opened : s.tally .sessionStarted = 1
  events : ∀ before after u, cues = before ++ after → first.run? before = some u → ∀ kind,
    s.tally (.delivered kind) =
      ((first.takings before).map WatchEvent.kind).count kind +
        ((u.takings after).map WatchEvent.kind).count kind
  fault :
    s.tally (.delivered .error) = 1 ∧ (∃ status, .error status ∈ first.takings cues) ∨
      s.tally (.delivered .error) = 0 ∧ ∀ status, .error status ∉ first.takings cues
  searches : s.cutoffs.map s.plan.searchSince = first.searches cues
  answers : s.responses = first.along given? cues
  polls : ∀ outcome, s.tally (.polled outcome) =
    s.polls.countP fun p => p.due? = some outcome && !p.isCut s.plan
  each : (s.polls.countP fun p => p.isCut s.plan) + s.tally (.polled .ok) +
    s.tally (.polled .empty) + s.tally (.polled .skipped) + s.tally (.polled .error) =
      (first.along given? cues).length
  broken : ∀ p ∈ s.polls, p.answer = none ∨ p.isCut s.plan = true →
    s.signal.reason = some .requested ∨ s.signal.reason = some .expired
  expired :
    s.tally .sessionExpired = 1 ∧ (∃ time, .expire time ∈ cues) ∨
      s.tally .sessionExpired = 0 ∧ ∀ time, .expire time ∉ cues

theorem takings_append {u : Session} {before : List Cue} (run : s.run? before = some u)
    (after : List Cue) : s.takings (before ++ after) = s.takings before ++ u.takings after :=
  along_append run after

/-- A consumer receives at most one fault. -/
theorem Lawful.count_faults (lawful : s.Lawful) :
    (s.received.map WatchEvent.kind).count .error = 1 ∧ (∃ status, .error status ∈ s.received) ∨
      (s.received.map WatchEvent.kind).count .error = 0 ∧ ∀ status, .error status ∉ s.received := by
  obtain ⟨changes, fault, received, about, _⟩ := lawful.received_eq
  have none_before : (changes.map WatchEvent.kind).count .error = 0 := by
    rw [List.count_eq_zero, List.mem_map]
    rintro ⟨event, member, kind⟩
    obtain ⟨b, rfl⟩ := about event member
    exact s.plan.kind_eventOf_ne b kind
  rw [received, List.map_append, List.count_append, none_before]
  cases fault with
  | none =>
      refine .inr ⟨rfl, fun status member => ?_⟩
      rw [Option.toList_none, List.map_nil, List.append_nil] at member
      obtain ⟨b, same⟩ := about _ member
      exact s.plan.kind_eventOf_ne b (congrArg WatchEvent.kind same).symm
  | some status =>
      refine .inl ⟨rfl, status, ?_⟩
      exact List.mem_append_right _ (List.mem_singleton_self _)

/-- **The counters of a session that has ended balance with what happened to it.** -/
theorem balanced_of_run {present : Instant} {plan : WatchPlan} {cues : List Cue}
    (run : (start now present plan).run? cues = some s) (ended : s.phase = .ended)
    (attached : s.attached = true) (empty : s.queue = []) :
    Balanced (start now present plan) cues s := by
  have lawful := lawful_of_run run
  have counted := counted_of_run run
  have received : s.received = (start now present plan).takings cues := received_of_run run
  have delivered : s.delivered = (start now present plan).takings cues := by
    rw [← received, ← lawful.passes.queued attached, empty, List.append_nil]
  have settled : ∀ p ∈ s.polls, p.Settled s.plan := by
    have told := lawful.told
    rw [Told, ended] at told
    exact fun p member => told.2.settled member
  have polls (outcome : PollOutcome) : s.tally (.polled outcome) =
      s.polls.countP fun p => p.due? = some outcome && !p.isCut s.plan :=
    (counted.polls outcome).trans (Poll.count_outcomes settled outcome)
  have answers : s.responses = (start now present plan).along given? cues := responses_of_run run
  refine ⟨counted.opened, ?_, ?_, searches_of_run run, answers, polls, ?_, ?_, ?_⟩
  · rintro before after u rfl first kind
    rw [counted.events, delivered, takings_append first, List.map_append, List.count_append]
  · have tally := counted.events .error
    rw [delivered, ← received] at tally
    rw [← received, tally]
    exact lawful.count_faults
  · rw [polls, polls, polls, polls, ← answers]
    exact Poll.count_answers s.plan s.polls
  · intro p member early
    exact reason_of_broken_off run ended attached member ((settled p member).outcome_eq_none early)
  · have lifetime : s.signal.reason = some .expired ↔ ∃ time, .expire time ∈ cues := by
      rw [expired_of_run run]
      refine or_iff_right ?_
      intro before
      cases before
    have tally : s.tally .sessionExpired = s.hasExpired.toNat := counted.expired attached
    rw [hasExpired, ended] at tally
    by_cases expired : s.signal.reason = some .expired
    · exact .inl ⟨tally.trans (by simp [expired]), lifetime.mp expired⟩
    · refine .inr ⟨tally.trans (by simp [expired]), fun time member => ?_⟩
      exact expired (lifetime.mpr ⟨time, member⟩)

end Session

end BugFeed
