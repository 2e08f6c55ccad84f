import Mathlib.Data.List.Chain
import BugFeed.Proofs.Watch.Channel
import BugFeed.Proofs.Watch.NextVisible

/-!
# The order of what a session hands over

A session that is opened after a version searches from the first instant that the version has not
covered. Each answer brings the watermark to the later of the cutoff and the latest change in it
(`ResourceVersion.reach`), and that is the cutoff of the next search, whatever the answers hold
(`History.chain`). What a poll hands over is the beginning of its batch (`History.handsOver`), so
it lies between its cutoff and the watermark that it comes to, and no poll hands over anything
before what an earlier one did (`ordered_by_watermark`).
-/

namespace BugFeed

set_option autoImplicit false

/-- A plan for a session after the second :05, with a queue that is asked to hold no event. -/
theorem WatchPlan.after?_sample :
    after? {} (fun _ => true)
      { pollIntervalMs := 1000, maxWatchDurationMs := 60000, eventBufferSize := 0 }
      ⟨.onFirstDay 5⟩ = some (.sample 6) := rfl

/-! ## The watermark after an answer -/

/-- The watermark after the answer to a search: the later of the cutoff and the latest change in
the answer. -/
def ResourceVersion.reach (cutoff : ResourceVersion) (found : SearchResponse) : ResourceVersion :=
  match found.latestChange? with
  | none => cutoff
  | some next => ⟨max cutoff.time next.time⟩

namespace ResourceVersion

variable {cutoff next : ResourceVersion} {found : SearchResponse}

theorem reach_of_empty (nothing : found.latestChange? = none) : cutoff.reach found = cutoff := by
  rw [reach, nothing]

theorem reach_of_stale (latest : found.latestChange? = some next)
    (stale : next.isAfter cutoff = false) : cutoff.reach found = cutoff := by
  simp only [reach, latest, max_eq_left (isAfter_eq_false_iff.mp stale)]

theorem reach_of_fresh (latest : found.latestChange? = some next)
    (fresh : next.isAfter cutoff = true) : cutoff.reach found = next := by
  simp only [reach, latest, max_eq_right (le_of_lt (isAfter_iff.mp fresh))]

theorem le_reach (cutoff : ResourceVersion) (found : SearchResponse) :
    cutoff.time ≤ (cutoff.reach found).time := by
  rw [reach]
  split
  · exact le_refl _
  · exact le_max_left _ _

/-- No change in an answer is later than the watermark after it. -/
theorem lastChange_le_reach {b : BugInfo} (member : b ∈ found.bugs) :
    b.lastChange ≤ (cutoff.reach found).time := by
  rw [reach]
  split
  · rename_i nothing
    rw [SearchResponse.latestChange?_eq_none_iff.mp nothing] at member
    cases member
  · rename_i next latest
    exact le_trans (SearchResponse.le_latestChange latest member) (le_max_right _ _)

end ResourceVersion

/-! ## What a poll hands over -/

namespace Poll

/-- The watermark that a poll comes to. -/
def reached (p : Poll) : ResourceVersion :=
  match p.answer with
  | some (.ok found) => p.cutoff.reach found
  | _ => p.cutoff

/-- The changes that a poll has to hand over if its answer is accepted. -/
def batch (plan : WatchPlan) (p : Poll) : List Bug :=
  match p.answer with
  | some (.ok found) => plan.batch p.cutoff found
  | _ => []

/-- The bugs that a poll handed over, first one first. -/
def reported (p : Poll) : List Bug := p.events.filterMap WatchEvent.bug?

/-- A poll handed over the changes in `done`, with which its batch begins, and `rest` remains. -/
structure HandsOver (plan : WatchPlan) (p : Poll) (done rest : List Bug) : Prop where
  split : p.batch plan = done ++ rest
  events : p.events = done.map plan.eventOf

variable {plan : WatchPlan} {p : Poll}

theorem le_reached (p : Poll) : p.cutoff.time ≤ p.reached.time := by
  rw [reached]
  split
  · exact p.cutoff.le_reach _
  · exact le_refl _

/-- A batch lies between the cutoff and the watermark that the poll comes to. -/
theorem between_of_mem_batch {b : Bug} (member : b ∈ p.batch plan) :
    p.cutoff.time ≤ b.lastChange ∧ b.lastChange ≤ p.reached.time := by
  rw [batch] at member
  split at member
  · rename_i found answered
    obtain ⟨f, inside, _, rfl, late⟩ := plan.mem_batch.mp member
    rw [reached, answered]
    exact ⟨late, ResourceVersion.lastChange_le_reach inside⟩
  · cases member

theorem batch_sorted (plan : WatchPlan) (p : Poll) :
    (p.batch plan).Pairwise fun a b => WatchPlan.before a b := by
  rw [batch]
  split
  · exact plan.batch_sorted _ _
  · exact .nil

/-- The bugs of the events of some changes are these changes. -/
theorem filterMap_bug?_eventOf (plan : WatchPlan) (changes : List Bug) :
    (changes.map plan.eventOf).filterMap WatchEvent.bug? = changes := by
  have tells : WatchEvent.bug? ∘ plan.eventOf = some := by
    funext b
    exact plan.bug?_eventOf b
  rw [List.filterMap_map, tells, List.filterMap_some]

theorem HandsOver.reported {done rest : List Bug} (hands : p.HandsOver plan done rest) :
    p.reported = done := by
  rw [Poll.reported, hands.events, filterMap_bug?_eventOf]

theorem HandsOver.mem_batch {done rest : List Bug} (hands : p.HandsOver plan done rest) {b : Bug}
    (member : b ∈ p.reported) : b ∈ p.batch plan := by
  rw [hands.split]
  rw [hands.reported] at member
  exact List.mem_append_left _ member

/-- What is handed over of a batch is in its order. -/
theorem HandsOver.sorted {done rest : List Bug} (hands : p.HandsOver plan done rest) :
    p.reported.Pairwise fun a b => WatchPlan.before a b := by
  have sorted := p.batch_sorted plan
  rw [hands.split] at sorted
  rw [hands.reported]
  exact (List.pairwise_append.mp sorted).1

end Poll

/-! ## The history of a session -/

/-- A poll that has not come to its end: it has no answer, or a fault, or the batch of its answer
is handed over up to some change. -/
inductive Underway (plan : WatchPlan) : Poll → Prop where
  | unanswered (cutoff : ResourceVersion) : Underway plan { cutoff := cutoff }
  | failed (cutoff : ResourceVersion) (fault : TransportFault) :
      Underway plan ⟨cutoff, some (.error fault), [], some .error⟩
  | handing {cutoff next : ResourceVersion} {found : SearchResponse} {done rest : List Bug}
      (handing : Handing plan cutoff found done rest next) :
      Underway plan (.handing plan cutoff found done)

/-- The polls of a session, newest first, and its watermark: all polls came to their end, but
perhaps the last. -/
inductive History (plan : WatchPlan) : List Poll → ResourceVersion → Prop where
  | settled {polls : List Poll} {watermark : ResourceVersion}
      (polled : Polled plan polls watermark) : History plan polls watermark
  | underway {p : Poll} {earlier : List Poll} (polled : Polled plan earlier p.cutoff)
      (last : Underway plan p) : History plan (p :: earlier) p.cutoff

theorem BrokenOff.history {plan : WatchPlan} {attached : Bool} {polls : List Poll}
    {watermark : ResourceVersion} (broken : BrokenOff plan attached polls watermark) :
    History plan polls watermark := by
  cases broken with
  | between polled => exact .settled polled
  | unanswered polled => exact .underway polled (.unanswered _)
  | failed polled => exact .underway polled (.failed _ _)
  | cut polled handing => exact .underway polled (.handing handing)

/-- Whatever a session is doing, its polls and its watermark are such a history. -/
theorem Session.Told.history {s : Session} (told : s.Told) :
    History s.plan s.polls s.watermark := by
  rw [Told] at told
  cases phase : s.phase with
  | pausing wake =>
      rw [phase] at told
      exact .settled told
  | searching =>
      rw [phase] at told
      obtain ⟨earlier, polls, polled⟩ := told
      rw [polls]
      exact .underway polled (.unanswered _)
  | delivering rest last next =>
      rw [phase] at told
      obtain ⟨earlier, found, done, polls, polled, handing, _⟩ := told
      rw [polls]
      exact .underway polled (.handing handing)
  | closing status | ended =>
      rw [phase] at told
      exact told.2.history

section History

variable {plan : WatchPlan} {polls : List Poll} {p : Poll} {watermark : ResourceVersion}

/-- A poll that came to its end had an answer, and left the watermark that this brings. -/
theorem Concluded.answered (concluded : Concluded plan p watermark) :
    (∃ found, p.answer = some (.ok found)) ∧ watermark = p.reached := by
  cases concluded with
  | empty nothing => exact ⟨⟨_, rfl⟩, (ResourceVersion.reach_of_empty nothing).symm⟩
  | skipped latest stale => exact ⟨⟨_, rfl⟩, (ResourceVersion.reach_of_stale latest stale).symm⟩
  | ok latest fresh => exact ⟨⟨_, rfl⟩, (ResourceVersion.reach_of_fresh latest fresh).symm⟩

theorem Concluded.handsOver (concluded : Concluded plan p watermark) :
    ∃ done rest, p.HandsOver plan done rest := by
  cases concluded with
  | empty => exact ⟨[], _, rfl, rfl⟩
  | skipped => exact ⟨[], _, rfl, rfl⟩
  | ok => exact ⟨_, [], (List.append_nil _).symm, rfl⟩

theorem Underway.handsOver (underway : Underway plan p) :
    ∃ done rest, p.HandsOver plan done rest := by
  cases underway with
  | unanswered cutoff => exact ⟨[], [], rfl, rfl⟩
  | failed cutoff fault => exact ⟨[], [], rfl, rfl⟩
  | handing handing => exact ⟨_, _, handing.split, rfl⟩

/-- All polls but the newest came to their end, and left the watermark that is its cutoff. -/
theorem History.earlier {earlier : List Poll} (history : History plan (p :: earlier) watermark) :
    Polled plan earlier p.cutoff := by
  cases history with
  | settled polled =>
      cases polled with
      | cons earlier => exact earlier
  | underway polled => exact polled

/-- Every poll that another one followed came to its end. -/
theorem History.concluded_of_tail (history : History plan polls watermark)
    (followed : p ∈ polls.tail) : ∃ after, Concluded plan p after := by
  cases polls with
  | nil => cases followed
  | cons newest earlier => exact history.earlier.concluded followed

/-- Every poll came to its end or is the one under way. -/
theorem History.mem_cases (history : History plan polls watermark) (member : p ∈ polls) :
    (∃ after, Concluded plan p after) ∨ Underway plan p := by
  cases history with
  | settled polled => exact .inl (polled.concluded member)
  | underway polled last =>
      rcases List.mem_cons.mp member with rfl | earlier
      · exact .inr last
      · exact .inl (polled.concluded earlier)

/-- **What a poll hands over is the beginning of its batch.** -/
theorem History.handsOver (history : History plan polls watermark) (member : p ∈ polls) :
    ∃ done rest, p.HandsOver plan done rest := by
  rcases history.mem_cases member with ⟨after, concluded⟩ | underway
  · exact concluded.handsOver
  · exact underway.handsOver

/-- The cutoff of a poll is the watermark that the one before it came to by its answer. -/
def Poll.Follows (q p : Poll) : Prop :=
  (∃ found, p.answer = some (.ok found)) ∧ q.cutoff = p.reached

theorem Polled.head_reached (polled : Polled plan polls watermark) :
    ∀ p ∈ polls.head?, (∃ found, p.answer = some (.ok found)) ∧ watermark = p.reached := by
  intro p head
  cases polled with
  | nil => cases head
  | cons _ last =>
      cases head
      exact last.answered

theorem Polled.chain (polled : Polled plan polls watermark) : polls.IsChain Poll.Follows := by
  induction polled with
  | nil => exact .nil
  | cons earlier _ ih => exact List.isChain_cons.mpr ⟨earlier.head_reached, ih⟩

/-- **Each search has the cutoff that the answer before it brings.** -/
theorem History.chain (history : History plan polls watermark) : polls.IsChain Poll.Follows := by
  cases polls with
  | nil => exact .nil
  | cons p earlier =>
      exact List.isChain_cons.mpr ⟨history.earlier.head_reached, history.earlier.chain⟩

theorem Polled.oldest_cutoff {earlier : List Poll} (polled : Polled plan earlier p.cutoff) :
    ∀ q ∈ (p :: earlier).getLast?, q.cutoff = plan.start := by
  generalize cutoff : p.cutoff = watermark at polled
  induction polled generalizing p with
  | nil =>
      intro q oldest
      cases oldest
      exact cutoff
  | cons _ _ ih =>
      rw [List.getLast?_cons_cons]
      exact ih rfl

/-- The first search has the cutoff at which the session starts. -/
theorem History.oldest_cutoff (history : History plan polls watermark) :
    ∀ q ∈ polls.getLast?, q.cutoff = plan.start := by
  cases polls with
  | nil => exact fun q oldest => by cases oldest
  | cons p earlier => exact history.earlier.oldest_cutoff

theorem Polled.start_le (polled : Polled plan polls watermark) :
    plan.start.time ≤ watermark.time := by
  induction polled with
  | nil => exact le_refl _
  | cons _ last ih => exact le_trans ih (last.answered.2 ▸ Poll.le_reached _)

/-- No poll goes back behind where the session starts. -/
theorem Polled.start_le_cutoff (polled : Polled plan polls watermark) (member : p ∈ polls) :
    plan.start.time ≤ p.cutoff.time := by
  induction polled with
  | nil => cases member
  | cons earlier _ ih =>
      rcases List.mem_cons.mp member with rfl | inside
      · exact earlier.start_le
      · exact ih inside

theorem History.start_le_cutoff (history : History plan polls watermark) (member : p ∈ polls) :
    plan.start.time ≤ p.cutoff.time := by
  cases history with
  | settled polled => exact polled.start_le_cutoff member
  | underway polled =>
      rcases List.mem_cons.mp member with rfl | inside
      · exact polled.start_le
      · exact polled.start_le_cutoff inside

/-- A poll begins where another one came to or later. -/
def Poll.After (q p : Poll) : Prop := p.reached.time ≤ q.cutoff.time

instance : IsTrans Poll Poll.After where
  trans _ p _ later earlier := le_trans (le_trans earlier p.le_reached) later

/-- No poll goes back behind what an earlier one came to. -/
theorem History.pairwise_after (history : History plan polls watermark) :
    polls.Pairwise Poll.After := by
  have after : polls.IsChain Poll.After :=
    history.chain.imp fun _ _ follows => le_of_eq (congrArg _ follows.2.symm)
  exact after.pairwise

/-- What a poll handed over lies between its cutoff and the watermark that it came to. -/
theorem History.between (history : History plan polls watermark) (member : p ∈ polls) {b : Bug}
    (told : b ∈ p.reported) : p.cutoff.time ≤ b.lastChange ∧ b.lastChange ≤ p.reached.time := by
  obtain ⟨done, rest, hands⟩ := history.handsOver member
  exact Poll.between_of_mem_batch (hands.mem_batch told)

/-- What a poll handed over is in the order in which changes are handed over. -/
theorem History.sorted (history : History plan polls watermark) (member : p ∈ polls) :
    p.reported.Pairwise fun a b => WatchPlan.before a b := by
  obtain ⟨done, rest, hands⟩ := history.handsOver member
  exact hands.sorted

/-- **What all polls handed over, one after the other, is in the order of the change times.** -/
theorem History.reported_pairwise (history : History plan polls watermark) :
    (polls.reverse.flatMap Poll.reported).Pairwise fun a b => a.lastChange ≤ b.lastChange := by
  rw [List.pairwise_flatMap]
  constructor
  · intro p member
    exact (history.sorted (List.mem_reverse.mp member)).imp fun h =>
      WatchPlan.lastChange_le_of_before h
  · rw [List.pairwise_reverse]
    refine history.pairwise_after.imp_of_mem ?_
    intro q p newer older after a told b toldLater
    exact le_trans (history.between older told).2
      (le_trans after (history.between newer toldLater).1)

end History

namespace Session

/-- The bugs of all events that a session handed over, first one first. -/
def reported (s : Session) : List Bug := s.delivered.filterMap WatchEvent.bug?

theorem Passes.reported_eq {s : Session} (passes : s.Passes) :
    s.reported = s.polls.reverse.flatMap Poll.reported := by
  obtain ⟨fault, delivered, _⟩ := passes.told
  have silent : (fault.toList.map WatchEvent.error).filterMap WatchEvent.bug? = [] := by
    cases fault <;> rfl
  rw [reported, delivered, List.filterMap_append, silent, List.append_nil, changes, Poll.changes,
    List.filterMap_flatMap]
  rfl

/-- No event of a session is about a change before where the session starts. -/
theorem Told.start_le_of_reported {s : Session} (told : s.Told) (passes : s.Passes) {b : Bug}
    (member : b ∈ s.reported) : s.plan.start.time ≤ b.lastChange := by
  rw [passes.reported_eq] at member
  obtain ⟨p, inside, reported⟩ := List.mem_flatMap.mp member
  have known := List.mem_reverse.mp inside
  exact le_trans (told.history.start_le_cutoff known) (told.history.between known reported).1

/-- The first search of a session has the cutoff at which the session starts. -/
theorem Told.first_cutoff {s : Session} (told : s.Told) :
    ∀ c ∈ s.cutoffs.head?, c = s.plan.start := by
  intro c first
  rw [cutoffs, List.head?_map, List.head?_reverse] at first
  obtain ⟨p, oldest, rfl⟩ := Option.map_eq_some_iff.mp first
  exact told.history.oldest_cutoff p oldest

theorem history_of_run {now : Nat} {present : Instant} {plan : WatchPlan} {s : Session}
    {cues : List Cue} (run : (start now present plan).run? cues = some s) :
    History plan s.polls s.watermark := by
  have history := (told_of_run run).history
  rwa [plan_of_run run] at history

/-- **The watermark of a session, and the order of its events.** A session that is opened after a
version sends its first search with the first instant that the version has not covered, and every
other one with the later of the cutoff before and the latest change in the answer to it, whatever
the answers are; so the cutoffs never go back. The searches have the arguments of the caller but
for the cutoff. All that a poll hands over lies between its cutoff and the watermark that it comes
to, in the order of the ids where the times are the same, and all events of the session are in the
order of the change times. -/
theorem ordered_by_watermark {args : SearchArgs} {includes : BugInfo → Bool}
    {config : WatchConfig} {version : ResourceVersion} {plan : WatchPlan}
    (opened : WatchPlan.after? args includes config version = some plan) {now : Nat}
    {present : Instant} {s : Session} {cues : List Cue}
    (run : (start now present plan).run? cues = some s) :
    (∀ c ∈ s.cutoffs.head?, version.nextVisible? = some c) ∧
      (s.polls.reverse.IsChain fun p q =>
        ∃ found, p.answer = some (.ok found) ∧ q.cutoff = p.cutoff.reach found) ∧
      (s.cutoffs.Pairwise fun c d => c.time ≤ d.time) ∧
      ((start now present plan).searches cues =
        s.cutoffs.map fun c => { args with changedSince := some c.time }) ∧
      (∀ p ∈ s.polls, ∀ b ∈ p.reported,
        p.cutoff.time ≤ b.lastChange ∧ b.lastChange ≤ p.reached.time) ∧
      (∀ p ∈ s.polls, p.reported.Pairwise fun a b => a.lastChange = b.lastChange → a.id ≤ b.id) ∧
      s.reported = s.polls.reverse.flatMap Poll.reported ∧
      s.reported.Pairwise fun a b => a.lastChange ≤ b.lastChange := by
  have history := history_of_run run
  have reported := (passes_of_run run).reported_eq
  refine ⟨?_, ?_, ?_, ?_, fun p member b told => history.between member told, ?_, reported, ?_⟩
  · intro c first
    rw [cutoffs, List.head?_map, List.head?_reverse] at first
    obtain ⟨p, oldest, rfl⟩ := Option.map_eq_some_iff.mp first
    rw [history.oldest_cutoff p oldest]
    exact WatchPlan.start_of_after? opened
  · rw [List.isChain_reverse]
    refine history.chain.imp ?_
    rintro q p ⟨⟨found, answered⟩, same⟩
    rw [Poll.reached, answered] at same
    exact ⟨found, answered, same⟩
  · rw [cutoffs, List.pairwise_map, List.pairwise_reverse]
    exact history.pairwise_after.imp fun {q p} after => le_trans p.le_reached after
  · have searched := searches_of_run run
    rw [plan_of_run run] at searched
    obtain ⟨first, _, rfl⟩ := Option.map_eq_some_iff.mp opened
    exact searched.symm
  · intro p member
    exact (history.sorted member).imp WatchPlan.id_le_of_before
  · rw [reported]
    exact history.reported_pairwise

/-- Two changes at one time are handed over in the order of their ids, and the next search has
their time as its cutoff. -/
theorem next_cutoff_after_two_changes :
    ∃ s, (start 0 .epoch (.sample 6)).run?
        [.proceed 7000, .answer 7000 (.ok ⟨[.sample 1 0 8, .sample 2 7 8]⟩), .proceed 7000,
          .take 7000, .proceed 7000, .proceed 7000, .proceed 8000] = some s ∧
      s.reported = [.ofInfo (.sample 1 0 8), .ofInfo (.sample 2 7 8)] ∧
      (start 0 .epoch (.sample 6)).searches
          [.proceed 7000, .answer 7000 (.ok ⟨[.sample 1 0 8, .sample 2 7 8]⟩), .proceed 7000,
            .take 7000, .proceed 7000, .proceed 7000, .proceed 8000] =
        [{ changedSince := some (.onFirstDay 6) }, { changedSince := some (.onFirstDay 8) }] := by
  have batch : (WatchPlan.sample 6).batch ⟨.onFirstDay 6⟩ ⟨[.sample 1 0 8, .sample 2 7 8]⟩ =
      [.ofInfo (.sample 1 0 8), .ofInfo (.sample 2 7 8)] :=
    WatchPlan.batch_of_pairwise (by decide)
  have latest : (SearchResponse.mk [.sample 1 0 8, .sample 2 7 8]).latestChange? =
      some ⟨.onFirstDay 8⟩ := rfl
  have run := (run?_accepted run?_firstSearch 7000 rfl rfl latest (by decide) batch
    [.proceed 7000, .take 7000, .proceed 7000, .proceed 7000, .proceed 8000]).trans rfl
  obtain ⟨_, _, _, searched, _⟩ := ordered_by_watermark WatchPlan.after?_sample run
  exact ⟨_, run, rfl, searched⟩

end Session

end BugFeed
