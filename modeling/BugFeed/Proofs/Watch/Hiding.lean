import BugFeed.Proofs.Watch.Balance
import BugFeed.Proofs.Watch.Due

/-!
# Hidden bugs

A session need not show all bugs. Those that it hides still count for the watermark, so hiding bugs
changes neither what the session searches for nor how its polls end; it only leaves out the events
about the hidden ones (`hiding_leaves_others`).

The theorem compares two runs that were given the same answers, whatever else happened in them and
whenever it did. On one answer the events differ by a filter, since hiding bugs commutes with
sorting them and with leaving out the early ones (`dueEvents_eq_filter`), and the cutoffs and
outcomes do not depend on what is shown (`Concluded.veils`). From one answer the two sessions go on
with the same watermark, so the polls are related one by one (`Polled.veils`).
-/

namespace BugFeed

set_option autoImplicit false

/-- Whether an event is about a bug that is shown. -/
def WatchEvent.isAbout (includes : BugInfo → Bool) (event : WatchEvent) : Bool :=
  event.bug?.any fun b => includes b.info

/-- The same watch without a bug that is hidden. -/
def WatchPlan.showingAll (plan : WatchPlan) : WatchPlan :=
  { plan with includes := fun _ => true }

/-! ## Answers -/

namespace WatchPlan

/-- Where a watch that hides bugs can be opened, so can one that shows all. -/
theorem after?_showingAll {args : SearchArgs} {includes : BugInfo → Bool} {config : WatchConfig}
    {version : ResourceVersion} {plan : WatchPlan}
    (opened : after? args includes config version = some plan) :
    after? args (fun _ => true) config version = some plan.showingAll := by
  obtain ⟨start, visible, rfl⟩ := Option.map_eq_some_iff.mp opened
  rw [after?, visible]
  rfl

/-- **Hiding bugs before the others are sorted is the same as leaving them out of the batch.** -/
theorem batch_eq_filter (plan : WatchPlan) (cutoff : ResourceVersion) (found : SearchResponse) :
    plan.batch cutoff found =
      (plan.showingAll.batch cutoff found).filter fun b => plan.includes b.info := by
  have all : found.bugs.filter plan.showingAll.includes = found.bugs := List.filter_true _
  rw [batch, batch, all, List.filter_filter, filter_mergeSort_before, filter_mergeSort_before,
    List.filter_map, List.filter_map, List.filter_filter]
  congr 3
  funext f
  exact Bool.and_comm _ _

theorem isAbout_eventOf (plan : WatchPlan) (includes : BugInfo → Bool) (b : Bug) :
    (plan.eventOf b).isAbout includes = includes b.info := by
  rw [WatchEvent.isAbout, bug?_eventOf, Option.any_some]

theorem dueEvents_eq_filter (plan : WatchPlan) (cutoff : ResourceVersion)
    (found : SearchResponse) :
    dueEvents plan.includes plan.start cutoff found =
      (dueEvents plan.showingAll.includes plan.showingAll.start cutoff found).filter
        (WatchEvent.isAbout plan.includes) := by
  cases latest : found.latestChange? with
  | none => rw [dueEvents_of_empty latest, dueEvents_of_empty latest, List.filter_nil]
  | some next =>
      cases fresh : next.isAfter cutoff with
      | false =>
          rw [dueEvents_of_stale latest fresh, dueEvents_of_stale latest fresh, List.filter_nil]
      | true =>
          rw [dueEvents_of_fresh latest fresh, dueEvents_of_fresh latest fresh, batch_eq_filter,
            List.filter_map]
          refine congrArg (List.map plan.eventOf) (List.filter_congr fun b _ => ?_)
          exact (isAbout_eventOf plan.showingAll plan.includes b).symm

/-- **The events that some answers call for without the hidden bugs are those that they call for,
without those about hidden bugs.** -/
theorem dueStream_eq_filter (plan : WatchPlan) (cutoff : ResourceVersion)
    (answers : List SearchResponse) :
    dueStream plan.includes plan.start cutoff answers =
      (dueStream plan.showingAll.includes plan.showingAll.start cutoff answers).filter
        (WatchEvent.isAbout plan.includes) := by
  induction answers generalizing cutoff with
  | nil => rfl
  | cons found later ih =>
      rw [dueStream, dueStream, List.filter_append, ← ih, ← dueEvents_eq_filter]

end WatchPlan

/-! ## Polls -/

namespace Poll

/-- A poll is another one, or that one before it came to its end. -/
structure Within (p whole : Poll) : Prop where
  cutoff : p.cutoff = whole.cutoff
  answer : p.answer = whole.answer
  ended : p.outcome ≠ none → p = whole

theorem Within.refl (p : Poll) : p.Within p := ⟨rfl, rfl, fun _ => rfl⟩

/-- A poll that hides bugs and one that shows all came to their end with the same answer, in the
same way, and the events of the one are those of the other that are about shown bugs. -/
structure Veils (includes : BugInfo → Bool) (p q : Poll) : Prop where
  cutoff : p.cutoff = q.cutoff
  answer : p.answer = q.answer
  outcome : p.outcome = q.outcome
  events : p.events = q.events.filter (WatchEvent.isAbout includes)

/-- Two polls, of which one hides bugs, have the same cutoff and answer, and if both came to their
end, they did so in the same way and with the same events about shown bugs. -/
structure Accords (includes : BugInfo → Bool) (p q : Poll) : Prop where
  cutoff : p.cutoff = q.cutoff
  answer : p.answer = q.answer
  ended : p.outcome ≠ none → q.outcome ≠ none →
    p.outcome = q.outcome ∧ p.events = q.events.filter (WatchEvent.isAbout includes)

variable {includes : BugInfo → Bool} {whole wholeAll polls pollsAll : List Poll}

theorem Veils.accords {p q c d : Poll} (veils : c.Veils includes d) (left : p.Within c)
    (right : q.Within d) : p.Accords includes q where
  cutoff := left.cutoff.trans (veils.cutoff.trans right.cutoff.symm)
  answer := left.answer.trans (veils.answer.trans right.answer.symm)
  ended endedLeft endedRight := by
    rw [left.ended endedLeft, right.ended endedRight]
    exact ⟨veils.outcome, veils.events⟩

theorem forall₂_accords (veils : List.Forall₂ (Veils includes) whole wholeAll)
    (left : List.Forall₂ Within polls whole) (right : List.Forall₂ Within pollsAll wholeAll) :
    List.Forall₂ (Accords includes) polls pollsAll := by
  induction veils generalizing polls pollsAll with
  | nil =>
      cases left
      cases right
      exact .nil
  | cons veil _ ih =>
      cases left with
      | cons left lefts =>
          cases right with
          | cons right rights => exact .cons (veil.accords left right) (ih lefts rights)

theorem map_eq_of_forall₂ {α : Type} {f : Poll → α} {R : Poll → Poll → Prop}
    (reads : ∀ p q, R p q → f p = f q) (related : List.Forall₂ R whole wholeAll) :
    whole.map f = wholeAll.map f := by
  induction related with
  | nil => rfl
  | cons first _ ih => rw [List.map_cons, List.map_cons, reads _ _ first, ih]

theorem gather_eq_of_forall₂ {α : Type} {f : Poll → Option α} {R : Poll → Poll → Prop}
    (reads : ∀ p q, R p q → f p = f q) (related : List.Forall₂ R whole wholeAll) :
    gather f whole = gather f wholeAll := by
  have gathered (polls : List Poll) : gather f polls = (polls.map f).reverse.filterMap id := by
    rw [gather, ← List.map_reverse, List.filterMap_map]
    rfl
  rw [gathered, gathered, map_eq_of_forall₂ reads related]

/-- A search without an answer has no outcome yet. -/
theorem gather_outcome_begun (searching : Bool) (cutoff : ResourceVersion) (polls : List Poll) :
    gather outcome ((if searching then [{ cutoff := cutoff }] else []) ++ polls) =
      gather outcome polls := by
  cases searching with
  | false => rfl
  | true => exact (gather_cons outcome _ polls).trans (List.append_nil _)

end Poll

section Polls

variable {plan : WatchPlan} {p q : Poll} {polls pollsAll : List Poll}
  {watermark watermarkAll : ResourceVersion}

/-- Two polls with the same cutoff and answer came to their end in the same way. -/
theorem Concluded.veils (concluded : Concluded plan p watermark)
    (all : Concluded plan.showingAll q watermarkAll) (cutoff : p.cutoff = q.cutoff)
    (answer : p.answer = q.answer) :
    p.Veils plan.includes q ∧ watermark = watermarkAll := by
  have outcome : p.outcome = q.outcome := by
    rw [← concluded.due?.1, ← all.due?.1, Poll.due?, Poll.due?, cutoff, answer]
  obtain ⟨found, answered, after, events⟩ := concluded.events_due
  obtain ⟨foundAll, answeredAll, afterAll, eventsAll⟩ := all.events_due
  obtain rfl : found = foundAll := by
    rw [answered, answeredAll] at answer
    cases answer
    rfl
  refine ⟨⟨cutoff, answer, outcome, ?_⟩, ?_⟩
  · rw [events, eventsAll, cutoff, WatchPlan.dueEvents_eq_filter]
  · rw [after, afterAll, cutoff]

/-- **Polls that all came to their end with the same answers.** -/
theorem Polled.veils (polled : Polled plan polls watermark)
    (all : Polled plan.showingAll pollsAll watermarkAll)
    (same : Poll.answers polls = Poll.answers pollsAll) :
    List.Forall₂ (Poll.Veils plan.includes) polls pollsAll ∧ watermark = watermarkAll := by
  have answers {plan : WatchPlan} {p : Poll} {earlier : List Poll} {after : ResourceVersion}
      (last : Concluded plan p after) : ∃ found, p.answer = some (.ok found) ∧
        Poll.answers (p :: earlier) = Poll.answers earlier ++ [found] := by
    obtain ⟨found, answered, _⟩ := last.events_due
    refine ⟨found, answered, ?_⟩
    rw [Poll.answers_cons, Poll.found?, answered]
    rfl
  induction polled generalizing pollsAll watermarkAll with
  | nil =>
      cases all with
      | nil => exact ⟨.nil, rfl⟩
      | cons _ last =>
          obtain ⟨found, _, joined⟩ := answers last
          rw [joined] at same
          exact absurd same.symm (List.append_ne_nil_of_right_ne_nil _ (List.cons_ne_nil _ _))
  | cons _ last ih =>
      obtain ⟨found, answered, joined⟩ := answers last
      cases all with
      | nil =>
          rw [joined] at same
          exact absurd same (List.append_ne_nil_of_right_ne_nil _ (List.cons_ne_nil _ _))
      | cons earlierAll lastAll =>
          obtain ⟨foundAll, answeredAll, joinedAll⟩ := answers lastAll
          rw [joined, joinedAll] at same
          obtain ⟨before, found⟩ := List.append_inj' same rfl
          obtain ⟨veils, cutoff⟩ := ih earlierAll before
          cases found
          obtain ⟨veil, after⟩ := last.veils lastAll cutoff (answered.trans answeredAll.symm)
          exact ⟨.cons veil veils, after⟩

end Polls

namespace Session

variable {s t : Session}

/-- The polls of a session that is not stopped, but for a search without an answer, are polls that
all come to their end with its answers. -/
theorem Told.completion (told : s.Told) (running : s.signal.isStopped = false) :
    ∃ polls whole watermark, Polled s.plan whole watermark ∧ Poll.answers whole = s.answers ∧
      s.polls = (if s.isSearching then [{ cutoff := watermark }] else []) ++ polls ∧
      List.Forall₂ Poll.Within polls whole ∧ (s.isDelivering = false → polls = whole) := by
  have refl (polls : List Poll) : List.Forall₂ Poll.Within polls polls :=
    List.forall₂_same.mpr fun p _ => .refl p
  rw [Told] at told
  cases phase : s.phase with
  | pausing wake =>
      rw [phase] at told
      refine ⟨s.polls, s.polls, s.watermark, told, rfl, ?_, refl _, fun _ => rfl⟩
      simp [isSearching, phase]
  | searching =>
      rw [phase] at told
      obtain ⟨earlier, polls, polled⟩ := told
      refine ⟨earlier, earlier, s.watermark, polled, ?_, ?_, refl _, fun _ => rfl⟩
      · rw [answers, polls, Poll.answers_cons]
        exact (List.append_nil _).symm
      · simp [isSearching, phase, polls]
  | delivering rest last next =>
      rw [phase] at told
      obtain ⟨earlier, found, done, polls, polled, handing, _⟩ := told
      refine ⟨s.polls, _, next, .cons polled (.ok handing.latest handing.fresh), ?_, ?_, ?_, ?_⟩
      · rw [answers, polls, Poll.answers_cons, Poll.answers_cons]
        rfl
      · simp [isSearching, phase]
      · rw [polls]
        exact .cons ⟨rfl, rfl, fun ended => absurd rfl ended⟩ (refl earlier)
      · intro left
        simp [isDelivering, phase] at left
  | closing status | ended =>
      rw [phase] at told
      rw [told.1] at running
      cases running

/-! ## Sessions that are not stopped -/

/-- A step onward neither stops a session whose consumer is there nor brings it an answer. -/
theorem Onward.kept {now : Nat} (onward : Onward s now t) (running : s.signal.isStopped = false)
    (attached : s.attached = true) :
    ∃ cue, s.follow? cue = some t ∧ s.hears? cue = none ∧ t.signal.isStopped = false ∧
      t.attached = true := by
  cases onward with
  | take takes =>
      refine ⟨_, takes, rfl, ?_⟩
      obtain ⟨⟨event, u⟩, taken, rfl⟩ := Option.map_eq_some_iff.mp takes
      rw [(queue_of_take taken).2]
      exact ⟨running, attached⟩
  | hand delivering proceeds =>
      refine ⟨_, proceeds, rfl, ?_⟩
      obtain ⟨rest, last, next, phase⟩ := isDelivering_iff.mp delivering
      cases rest with
      | nil =>
          simp only [follow?, proceed?, phase, Option.map_some, Option.some.injEq] at proceeds
          rw [← proceeds]
          exact ⟨running, attached⟩
      | cons b rest =>
          simp only [follow?, proceed?, phase, deliver?, running, Bool.false_eq_true, and_false,
            if_false] at proceeds
          obtain ⟨_, goes, rfl⟩ := Option.map_eq_some_iff.mp proceeds
          obtain ⟨u, handed, rfl⟩ := Option.map_eq_some_iff.mp goes
          rcases handOver_cases handed with ⟨detached, _⟩ | ⟨_, _, rfl⟩
          · rw [attached] at detached
            cases detached
          · exact ⟨running, attached⟩

/-- A session that is not stopped hands the batch of its answer over to a consumer that keeps
receiving. -/
theorem exists_handed_over (room : 0 < s.plan.capacity) (running : s.signal.isStopped = false)
    (attached : s.attached = true) (now : Nat) :
    ∃ cues t, s.run? cues = some t ∧ s.heard cues = [] ∧ t.signal.isStopped = false ∧
      t.attached = true ∧ t.backlog = 0 := by
  generalize behind : s.backlog = n
  induction n using Nat.strong_induction_on generalizing s with
  | _ n ih =>
      by_cases none_left : s.backlog = 0
      · exact ⟨[], s, rfl, rfl, running, attached, none_left⟩
      · obtain ⟨t, onward⟩ := exists_onward room none_left now
        obtain ⟨cue, follows, unheard, stillRunning, stillAttached⟩ := onward.kept running attached
        obtain ⟨cues, u, run, silent, rest⟩ := ih t.backlog (behind ▸ lt_backlog_of_onward onward)
          (by rwa [plan_follow follows]) stillRunning stillAttached rfl
        refine ⟨cue :: cues, u, (run?_cons follows cues).trans run, ?_, rest⟩
        exact (along_cons follows cues).trans (by rw [unheard, ← heard, silent]; rfl)

/-- A session that is not stopped looks at an answer and goes on. -/
theorem exists_answered (running : s.signal.isStopped = false) (attached : s.attached = true)
    (phase : s.phase = .searching) (now : Nat) (found : SearchResponse) :
    ∃ t, s.follow? (.answer now (.ok found)) = some t ∧
      s.hears? (.answer now (.ok found)) = some found ∧ t.signal.isStopped = false ∧
      t.attached = true := by
  refine ⟨_, rfl, ?_, ?_, (hears_answer s now (.ok found)).attached.trans attached⟩
  · simp [hears?, isSearching, phase, running]
  · have hears := hears_answer s now (.ok found)
    generalize s.answer now (.ok found) = t at hears
    cases hears with
    | unasked => exact running
    | late _ stopped => cases running.symm.trans stopped
    | picked _ _ picks =>
        cases picks with
        | empty | skipped | accepted => exact running

/-- **There is a run without a stop for any answers**, at the end of which everything that they call
for has been received. -/
theorem exists_run_hearing {plan : WatchPlan} (room : 0 < plan.capacity) (now : Nat)
    (present : Instant) (answers : List SearchResponse) :
    ∃ cues s, (start now present plan).run? cues = some s ∧
      (start now present plan).heard cues = answers ∧ s.signal.isStopped = false ∧
      s.attached = true ∧ s.backlog = 0 := by
  induction answers using List.reverseRecOn with
  | nil => exact ⟨[], _, rfl, rfl, rfl, rfl, rfl⟩
  | append_singleton answers found ih =>
      obtain ⟨cues, s, run, heard_, running, attached, idle⟩ := ih
      have searching : ∃ more u, s.run? more = some u ∧ s.heard more = [] ∧
          u.signal.isStopped = false ∧ u.attached = true ∧ u.phase = .searching := by
        have told := told_of_run run
        rw [Told] at told
        cases phase : s.phase with
        | pausing wake =>
            have asks := follow?_ask running phase (Nat.le_refl wake)
            exact ⟨[.proceed wake], _, run?_cons asks [], along_cons asks [], running, attached,
              rfl⟩
        | searching => exact ⟨[], s, rfl, rfl, running, attached, phase⟩
        | delivering =>
            have left := (backlog_eq_zero_iff.mp idle).2
            simp [isDelivering, phase] at left
        | closing | ended =>
            rw [phase] at told
            cases running.symm.trans told.1
      obtain ⟨more, u, asks, unheard, running, attached, phase⟩ := searching
      obtain ⟨v, answered, hears, running, attached⟩ :=
        exists_answered running attached phase now found
      have kept : v.plan = plan :=
        (plan_follow answered).trans ((plan_of_run asks).trans (plan_of_run run))
      obtain ⟨rest, t, hands, silent, running, attached, idle⟩ :=
        exists_handed_over (kept ▸ room) running attached now
      have whole := (run?_append run (more ++ .answer now (.ok found) :: rest)).trans
        ((run?_append asks _).trans ((run?_cons answered rest).trans hands))
      refine ⟨_, t, whole, ?_, running, attached, idle⟩
      rw [heard, along_append run, along_append asks, along_cons answered, ← heard, ← heard,
        ← heard, heard_, unheard, hears, silent]
      rfl

/-! ## Two sessions -/

/-- What the consumer of a session that is not stopped took, what waits for it and what remains of
the batch are what the answers call for. -/
theorem stream_of_run {now : Nat} {present : Instant} {plan : WatchPlan} {cues : List Cue}
    (run : (start now present plan).run? cues = some s) (running : s.signal.isStopped = false)
    (attached : s.attached = true) :
    s.received ++ s.queue ++ s.pending =
      dueStream plan.includes plan.start plan.start ((start now present plan).heard cues) := by
  have told := told_of_run run
  have passes := passes_of_run run
  rw [passes.queued attached, passes.delivered_eq (told.ne_ended running),
    told.changes_append_pending running, answers_of_run run, plan_of_run run]
  rfl

/-- The polls of two runs that are given the same answers, of which one hides bugs. -/
theorem exists_accords {plan : WatchPlan} {now nowAll : Nat} {present presentAll : Instant}
    {cues cuesAll : List Cue} (run : (start now present plan).run? cues = some s)
    (running : s.signal.isStopped = false)
    (runAll : (start nowAll presentAll plan.showingAll).run? cuesAll = some t)
    (runningAll : t.signal.isStopped = false)
    (same : (start now present plan).heard cues =
      (start nowAll presentAll plan.showingAll).heard cuesAll) :
    ∃ (next : ResourceVersion) (polls pollsAll : List Poll),
      s.polls = (if s.isSearching then [{ cutoff := next }] else []) ++ polls ∧
      t.polls = (if t.isSearching then [{ cutoff := next }] else []) ++ pollsAll ∧
      List.Forall₂ (Poll.Accords plan.includes) polls pollsAll ∧
      (s.isDelivering = false → t.isDelivering = false → s.outcomes = t.outcomes) := by
  obtain ⟨polls, whole, watermark, polled, answers, begun, within, ended⟩ :=
    (told_of_run run).completion running
  obtain ⟨pollsAll, wholeAll, watermarkAll, polledAll, answersAll, begunAll, withinAll, endedAll⟩ :=
    (told_of_run runAll).completion runningAll
  have kept : s.plan = plan := plan_of_run run
  have keptAll : t.plan = plan.showingAll := plan_of_run runAll
  rw [kept] at polled
  rw [keptAll] at polledAll
  rw [answers_of_run run] at answers
  rw [answers_of_run runAll, ← same] at answersAll
  obtain ⟨veils, rfl⟩ := polled.veils polledAll (answers.trans answersAll.symm)
  refine ⟨watermark, polls, pollsAll, begun, begunAll, Poll.forall₂_accords veils within withinAll,
    fun left leftAll => ?_⟩
  rw [outcomes, outcomes, begun, begunAll, Poll.gather_outcome_begun, Poll.gather_outcome_begun,
    ended left, endedAll leftAll,
    Poll.gather_eq_of_forall₂ (fun _ _ veil => veil.outcome) veils]

/-- **Hiding bugs does not disturb the events about the others.** Where a watch that hides bugs can
be opened, so can one that shows all, and for any answers both have runs that are given just these
and are not stopped. Let two such runs be given the same answers, however long the answers took,
however the consumers took the events and however much room there was. Their polls have the same
cutoffs and answers, those that came to their end in both the same outcomes and events about shown
bugs, and but for a search that one of the two has begun and the other not yet they have made the
same searches. What the consumer took, what waits for it and what remains of the batch are those of
the other session that are about shown bugs, of the same kind and in the same order. -/
theorem hiding_leaves_others {args : SearchArgs} {includes : BugInfo → Bool} {config : WatchConfig}
    {version : ResourceVersion} {plan : WatchPlan}
    (opened : WatchPlan.after? args includes config version = some plan) :
    WatchPlan.after? args (fun _ => true) config version = some plan.showingAll ∧
      (∀ now present answers,
        (∃ cues s, (start now present plan).run? cues = some s ∧
          (start now present plan).heard cues = answers ∧ s.signal.isStopped = false ∧
          s.attached = true ∧ s.backlog = 0) ∧
        ∃ cues s, (start now present plan.showingAll).run? cues = some s ∧
          (start now present plan.showingAll).heard cues = answers ∧ s.signal.isStopped = false ∧
          s.attached = true ∧ s.backlog = 0) ∧
      ∀ now nowAll present presentAll cues cuesAll s t,
        (start now present plan).run? cues = some s → s.signal.isStopped = false →
        s.attached = true →
        (start nowAll presentAll plan.showingAll).run? cuesAll = some t →
        t.signal.isStopped = false → t.attached = true →
        (start now present plan).heard cues =
          (start nowAll presentAll plan.showingAll).heard cuesAll →
        (∃ (next : ResourceVersion) (polls pollsAll : List Poll),
          s.polls = (if s.isSearching then [{ cutoff := next }] else []) ++ polls ∧
          t.polls = (if t.isSearching then [{ cutoff := next }] else []) ++ pollsAll ∧
          List.Forall₂ (Poll.Accords includes) polls pollsAll) ∧
        (s.isSearching = t.isSearching → (start now present plan).searches cues =
          (start nowAll presentAll plan.showingAll).searches cuesAll) ∧
        s.received ++ s.queue ++ s.pending =
          (t.received ++ t.queue ++ t.pending).filter (WatchEvent.isAbout includes) ∧
        (s.backlog = 0 → t.backlog = 0 → s.outcomes = t.outcomes ∧
          s.received = t.received.filter (WatchEvent.isAbout includes)) := by
  have shown := WatchPlan.includes_of_after? opened
  have room := WatchPlan.capacity_pos_of_after? opened
  have roomAll : 0 < plan.showingAll.capacity := room
  refine ⟨WatchPlan.after?_showingAll opened, fun now present answers =>
    ⟨exists_run_hearing room now present answers,
      exists_run_hearing roomAll now present answers⟩, ?_⟩
  intro now nowAll present presentAll cues cuesAll s t run running attached runAll runningAll
    attachedAll same
  obtain ⟨next, polls, pollsAll, begun, begunAll, accords, outcomes⟩ :=
    exists_accords run running runAll runningAll same
  have stream : s.received ++ s.queue ++ s.pending =
      (t.received ++ t.queue ++ t.pending).filter (WatchEvent.isAbout includes) := by
    rw [stream_of_run run running attached, stream_of_run runAll runningAll attachedAll, ← same,
      WatchPlan.dueStream_eq_filter, shown]
    rfl
  refine ⟨⟨next, polls, pollsAll, begun, begunAll, shown ▸ accords⟩, ?_, stream, ?_⟩
  · intro alike
    have cutoffs : s.cutoffs = t.cutoffs := by
      rw [cutoffs, cutoffs, begun, begunAll, alike, List.map_reverse, List.map_reverse,
        List.map_append, List.map_append,
        Poll.map_eq_of_forall₂ (fun _ _ accord => accord.cutoff) accords]
    have searched := searches_of_run run
    have searchedAll := searches_of_run runAll
    rw [plan_of_run run] at searched
    rw [plan_of_run runAll] at searchedAll
    exact searched.symm.trans ((congrArg _ cutoffs).trans searchedAll)
  · intro idle idleAll
    obtain ⟨empty, left⟩ := backlog_eq_zero_iff.mp idle
    obtain ⟨emptyAll, leftAll⟩ := backlog_eq_zero_iff.mp idleAll
    refine ⟨outcomes left leftAll, ?_⟩
    rw [empty, emptyAll, pending_eq_nil left, pending_eq_nil leftAll] at stream
    simpa using stream

/-- A session that hides the bug with the id 2, which changed last, moves its watermark as one that
shows it does, so that both skip the next answer. -/
theorem hidden_bug_moves_watermark :
    ∃ s t : Session, ∃ cues cuesAll,
      (start 0 .epoch { WatchPlan.sample 6 with includes := fun f => f.id ≠ 2 }).run? cues =
        some s ∧
      (start 0 .epoch (.sample 6)).run? cuesAll = some t ∧
      s.watermark = ⟨.onFirstDay 9⟩ ∧ s.outcomes = [.ok, .skipped] ∧ t.outcomes = [.ok, .skipped] ∧
      t.received = [.modified (.ofInfo (.sample 1 0 8)), .modified (.ofInfo (.sample 2 0 9))] ∧
      s.received = t.received.filter (WatchEvent.isAbout fun f => f.id ≠ 2) := by
  have opened : WatchPlan.after? {} (fun f => f.id ≠ 2)
      { pollIntervalMs := 1000, maxWatchDurationMs := 60000, eventBufferSize := 0 }
      ⟨.onFirstDay 5⟩ = some { WatchPlan.sample 6 with includes := fun f => f.id ≠ 2 } := rfl
  have batch : WatchPlan.batch { WatchPlan.sample 6 with includes := fun f => f.id ≠ 2 }
      ⟨.onFirstDay 6⟩ ⟨[.sample 1 0 8, .sample 2 0 9]⟩ = [.ofInfo (.sample 1 0 8)] := by
    rw [WatchPlan.batch_eq_insertionSort]
    decide
  have batchAll : (WatchPlan.sample 6).batch ⟨.onFirstDay 6⟩ ⟨[.sample 1 0 8, .sample 2 0 9]⟩ =
      [.ofInfo (.sample 1 0 8), .ofInfo (.sample 2 0 9)] :=
    WatchPlan.batch_of_pairwise (by decide)
  have latest : (SearchResponse.mk [.sample 1 0 8, .sample 2 0 9]).latestChange? =
      some ⟨.onFirstDay 9⟩ := rfl
  have begun : (start 0 .epoch { WatchPlan.sample 6 with includes := fun f => f.id ≠ 2 }).run?
      [.proceed 7000] = some _ := run?_cons (follow?_firstSearch (by decide)) []
  obtain ⟨s, run, runningSome, attachedSome, answers, idle, watermark, outcomes⟩ : ∃ s,
      (start 0 .epoch { WatchPlan.sample 6 with includes := fun f => f.id ≠ 2 }).run? _ = some s ∧
      s.signal.isStopped = false ∧ s.attached = true ∧
      s.answers = [⟨[.sample 1 0 8, .sample 2 0 9]⟩, ⟨[.sample 3 0 9]⟩] ∧ s.backlog = 0 ∧
      s.watermark = ⟨.onFirstDay 9⟩ ∧ s.outcomes = [.ok, .skipped] :=
    ⟨_, (run?_accepted begun 7000 rfl rfl latest (by decide) batch
      [.proceed 7000, .take 7000, .proceed 7000, .proceed 8000,
        .answer 8000 (.ok ⟨[.sample 3 0 9]⟩)]).trans rfl, rfl, rfl, rfl, rfl, rfl, rfl⟩
  obtain ⟨t, runAll, runningAll, attachedAll, answersAll, idleAll, outcomesAll, received⟩ : ∃ t,
      (start 0 .epoch (.sample 6)).run? _ = some t ∧ t.signal.isStopped = false ∧
      t.attached = true ∧ t.answers = [⟨[.sample 1 0 8, .sample 2 0 9]⟩, ⟨[.sample 3 0 9]⟩] ∧
      t.backlog = 0 ∧ t.outcomes = [.ok, .skipped] ∧ t.received =
        [.modified (.ofInfo (.sample 1 0 8)), .modified (.ofInfo (.sample 2 0 9))] :=
    ⟨_, (run?_accepted run?_firstSearch 7000 rfl rfl latest (by decide) batchAll
      [.proceed 7000, .take 7000, .proceed 7000, .take 7000, .proceed 7000, .proceed 8000,
        .answer 8000 (.ok ⟨[.sample 3 0 9]⟩)]).trans rfl, rfl, rfl, rfl, rfl, rfl, rfl⟩
  have same := (answers_of_run run).symm.trans
    ((answers.trans answersAll.symm).trans (answers_of_run runAll))
  obtain ⟨_, _, compare⟩ := hiding_leaves_others opened
  obtain ⟨_, _, _, ended⟩ := compare 0 0 .epoch .epoch _ _ s t run runningSome attachedSome runAll
    runningAll attachedAll same
  exact ⟨s, t, _, _, run, runAll, watermark, outcomes, outcomesAll, received,
    (ended idle idleAll).2⟩

end Session

end BugFeed
