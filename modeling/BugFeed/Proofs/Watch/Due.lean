import Mathlib.Data.List.Sort
import BugFeed.Proofs.Watch.Answers
import BugFeed.Proofs.Watch.Order

/-!
# What the answers call for

The events that an answer calls for are a function of the answer and of the cutoff of its search
(`dueEvents`), and so are the events that a list of answers calls for, where each answer brings the
cutoff of the next search (`dueStream`).

A session that is not stopped hands over just these. At every moment of a run what its consumer
took, what waits in the queue and what remains of the batch are, in this order, the events that the
answers in the run call for (`refines_due_stream`). Neither the length of the queue nor the times at
which the consumer takes events appear in it.

The session sorts all bugs that it shows and leaves out the early ones after that, by a merge sort;
the events that an answer calls for are found the other way round, by insertion. Both keep the order
of the answer where the order of changes says nothing (`filter_mergeSort_before`).
-/

namespace BugFeed

set_option autoImplicit false

/-! ## The events that answers call for -/

/-- One change comes before another or has no order with it: by the times, and by the ids where
the times are the same. -/
def BugInfo.Precedes (f g : BugInfo) : Prop :=
  f.lastChange < g.lastChange ∨ f.lastChange = g.lastChange ∧ f.id ≤ g.id

instance : DecidableRel BugInfo.Precedes := fun f g =>
  inferInstanceAs
    (Decidable (f.lastChange < g.lastChange ∨ f.lastChange = g.lastChange ∧ f.id ≤ g.id))

/-- The events that the answer to a search calls for. If no change in it is later than the cutoff,
there are none; else there is one for each shown bug that changed at the cutoff or later, in the
order of the changes, and in that of the answer where the changes have none. A bug that was created
at the start of the session or later is new. -/
def dueEvents (includes : BugInfo → Bool) (start cutoff : ResourceVersion)
    (found : SearchResponse) : List WatchEvent :=
  if ∀ f ∈ found.bugs, f.lastChange ≤ cutoff.time then []
  else
    ((found.bugs.filter fun f => includes f ∧ cutoff.time ≤ f.lastChange).insertionSort
      BugInfo.Precedes).map fun f =>
        if start.time ≤ f.created then .added (.ofInfo f) else .modified (.ofInfo f)

/-- The events that answers to searches call for, one answer after the other, where each brings the
cutoff of the next search. -/
def dueStream (includes : BugInfo → Bool) (start : ResourceVersion) :
    ResourceVersion → List SearchResponse → List WatchEvent
  | _, [] => []
  | cutoff, found :: later =>
    dueEvents includes start cutoff found ++ dueStream includes start (cutoff.reach found) later

theorem dueStream_append_singleton (includes : BugInfo → Bool) (start cutoff : ResourceVersion)
    (earlier : List SearchResponse) (found : SearchResponse) :
    dueStream includes start cutoff (earlier ++ [found]) =
      dueStream includes start cutoff earlier ++
        dueEvents includes start (earlier.foldl ResourceVersion.reach cutoff) found := by
  induction earlier generalizing cutoff with
  | nil => exact List.append_nil _
  | cons first earlier ih =>
      rw [List.cons_append, dueStream, dueStream, ih, List.append_assoc]
      rfl

/-! ## Batches by insertion -/

/-- A change is inserted after all that it does not precede. -/
theorem orderedInsert_append {α : Type} {r : α → α → Prop} [DecidableRel r] {a : α}
    {low high : List α} (below : ∀ b ∈ low, ¬ r a b) (above : ∀ b ∈ high, r a b) :
    (low ++ high).orderedInsert r a = low ++ a :: high := by
  induction low with
  | nil =>
      cases high with
      | nil => rfl
      | cons b high => exact List.orderedInsert_cons_of_le r high (above b List.mem_cons_self)
  | cons b low ih =>
      rw [List.cons_append, List.orderedInsert_of_not_le r _ (below b List.mem_cons_self),
        ih fun c member => below c (List.mem_cons_of_mem b member), List.cons_append]

namespace WatchPlan

variable {plan : WatchPlan} {cutoff next : ResourceVersion} {found : SearchResponse}

/-- **Leaving bugs out of a sorted list is the same as sorting those that are left.** -/
theorem filter_mergeSort_before (p : Bug → Bool) (bugs : List Bug) :
    (bugs.mergeSort before).filter p =
      (bugs.filter p).insertionSort fun a b => before a b := by
  induction bugs with
  | nil => rw [List.mergeSort_nil]; rfl
  | cons b bugs ih =>
      -- The merge sort puts `b` between what it does not precede and what it precedes.
      obtain ⟨low, high, whole, part, below⟩ :=
        List.mergeSort_cons before_trans before_total b bugs
      have sorted := List.pairwise_mergeSort before_trans before_total (b :: bugs)
      rw [whole, List.pairwise_append, List.pairwise_cons] at sorted
      rw [part, List.filter_append] at ih
      rw [whole, List.filter_append]
      cases chosen : p b with
      | false =>
          rw [List.filter_cons_of_neg (ne_true_of_eq_false chosen),
            List.filter_cons_of_neg (ne_true_of_eq_false chosen), ih]
      | true =>
          rw [List.filter_cons_of_pos chosen, List.filter_cons_of_pos chosen,
            List.insertionSort_cons, ← ih, orderedInsert_append]
          · intro c member
            simpa using below c (List.mem_of_mem_filter member)
          · exact fun c member => sorted.2.1.1 c (List.mem_of_mem_filter member)

/-- A batch by insertion of the bugs of the answer. -/
theorem batch_eq_insertionSort (plan : WatchPlan) (cutoff : ResourceVersion)
    (found : SearchResponse) :
    plan.batch cutoff found =
      ((found.bugs.filter fun f => plan.includes f ∧ cutoff.time ≤ f.lastChange).insertionSort
        BugInfo.Precedes).map Bug.ofInfo := by
  have same : ∀ f g : BugInfo, f.Precedes g ↔ before (.ofInfo f) (.ofInfo g) = true := by
    intro f g
    simp only [before, Bool.or_eq_true, Bool.and_eq_true, decide_eq_true_eq]
    exact Iff.rfl
  rw [batch, filter_mergeSort_before, List.filter_map, List.filter_filter,
    List.map_insertionSort BugInfo.Precedes (fun a b => before a b) Bug.ofInfo _
      fun f _ g _ => same f g]
  congr 2
  refine List.filter_congr fun f _ => ?_
  rw [Bool.and_comm, Bool.decide_and, Bool.decide_eq_true]
  rfl

/-- The events of the batch of an accepted answer are those that it calls for. -/
theorem dueEvents_of_fresh (latest : found.latestChange? = some next)
    (fresh : next.isAfter cutoff = true) :
    dueEvents plan.includes plan.start cutoff found =
      (plan.batch cutoff found).map plan.eventOf := by
  obtain ⟨f, member, time⟩ := SearchResponse.exists_latestChange latest
  have later : ¬ ∀ f ∈ found.bugs, f.lastChange ≤ cutoff.time := by
    intro early
    exact absurd (ResourceVersion.isAfter_iff.mp fresh) (not_lt.mpr (time ▸ early f member))
  rw [dueEvents, if_neg later, batch_eq_insertionSort, List.map_map]
  rfl

/-- An answer of which no change is later than the cutoff calls for nothing. -/
theorem dueEvents_of_stale (latest : found.latestChange? = some next)
    (stale : next.isAfter cutoff = false) :
    dueEvents plan.includes plan.start cutoff found = [] := by
  have early : ∀ f ∈ found.bugs, f.lastChange ≤ cutoff.time := fun f member =>
    le_trans (SearchResponse.le_latestChange latest member)
      (ResourceVersion.isAfter_eq_false_iff.mp stale)
  rw [dueEvents, if_pos early]

theorem dueEvents_of_empty (nothing : found.latestChange? = none) :
    dueEvents plan.includes plan.start cutoff found = [] := by
  rw [dueEvents, SearchResponse.latestChange?_eq_none_iff.mp nothing, if_pos fun _ h => by cases h]

end WatchPlan

/-! ## Answers of polls -/

namespace Poll

/-- The answer of a poll, if it is no fault. -/
def found? (p : Poll) : Option SearchResponse :=
  match p.answer with
  | some (.ok found) => some found
  | _ => none

/-- The answers of some polls, newest first, in the order in which they came. -/
def answers (polls : List Poll) : List SearchResponse := polls.reverse.filterMap found?

theorem answers_cons (p : Poll) (polls : List Poll) :
    answers (p :: polls) = answers polls ++ p.found?.toList :=
  gather_cons found? p polls

/-- The answers of some polls are those among all that they were given which are no faults. -/
theorem answers_eq (polls : List Poll) :
    answers polls = (gather answer polls).filterMap Except.toOption := by
  rw [answers, gather, List.filterMap_filterMap]
  refine List.filterMap_congr fun p _ => ?_
  rcases p with ⟨_, _ | _ | _, _, _⟩ <;> rfl

end Poll

section Polls

variable {plan : WatchPlan} {polls : List Poll} {p : Poll} {watermark : ResourceVersion}

/-- A poll that came to its end handed over what its answer calls for. -/
theorem Concluded.events_due (concluded : Concluded plan p watermark) :
    ∃ found, p.answer = some (.ok found) ∧ watermark = p.cutoff.reach found ∧
      p.events = dueEvents plan.includes plan.start p.cutoff found := by
  cases concluded with
  | empty nothing =>
      exact ⟨_, rfl, (ResourceVersion.reach_of_empty nothing).symm,
        (WatchPlan.dueEvents_of_empty nothing).symm⟩
  | skipped latest stale =>
      exact ⟨_, rfl, (ResourceVersion.reach_of_stale latest stale).symm,
        (WatchPlan.dueEvents_of_stale latest stale).symm⟩
  | ok latest fresh =>
      exact ⟨_, rfl, (ResourceVersion.reach_of_fresh latest fresh).symm,
        (WatchPlan.dueEvents_of_fresh latest fresh).symm⟩

/-- **Polls that all came to their end handed over what their answers call for, and left the
watermark that these bring.** -/
theorem Polled.changes_due (polled : Polled plan polls watermark) :
    Poll.changes polls = dueStream plan.includes plan.start plan.start (Poll.answers polls) ∧
      watermark = (Poll.answers polls).foldl ResourceVersion.reach plan.start := by
  induction polled with
  | nil => exact ⟨rfl, rfl⟩
  | @cons earlier p watermark _ last ih =>
      obtain ⟨found, answered, after, events⟩ := last.events_due
      have answers : Poll.answers (p :: earlier) = Poll.answers earlier ++ [found] := by
        rw [Poll.answers_cons, Poll.found?, answered]
        rfl
      rw [answers, dueStream_append_singleton, List.foldl_append, ← ih.1, ← ih.2, ← events]
      exact ⟨Poll.changes_cons p earlier, after⟩

end Polls

namespace Session

/-! ## Answers of runs -/

/-- The answers that the polls of the session had, first one first. -/
def answers (s : Session) : List SearchResponse := Poll.answers s.polls

/-- The answer that a session looks at when it comes, if it is no fault. -/
def hears? (s : Session) : Cue → Option SearchResponse
  | .answer _ (.ok found) => if s.isSearching && !s.signal.isStopped then some found else none
  | _ => none

/-- The answers that a session looks at in a run, first one first. -/
def heard (s : Session) (cues : List Cue) : List SearchResponse := s.along hears? cues

variable {s t : Session} {now : Nat}

theorem answers_eq (s : Session) : s.answers = s.responses.filterMap Except.toOption :=
  Poll.answers_eq s.polls

theorem hears?_eq (s : Session) (cue : Cue) :
    s.hears? cue = (s.given? cue).bind Except.toOption := by
  cases cue with
  | answer now response =>
      by_cases looks : (s.isSearching && !s.signal.isStopped) = true
      · cases response <;> simp only [hears?, given?, looks, if_true] <;> rfl
      · cases response <;> simp only [hears?, given?, looks] <;> rfl
  | expire | proceed | take | stop | close | drop => rfl

theorem answers_fire (s : Session) (now : Nat) (reason : StopReason) :
    (s.fire now reason).answers = s.answers := by
  rw [answers_eq, answers_eq, responses, gather_fire Poll.reads_answer, responses]

theorem answers_take {event : WatchEvent} (taken : s.take? now = some (event, t)) :
    t.answers = s.answers := by
  rw [answers_eq, answers_eq, responses, gather_take Poll.reads_answer taken, responses]

theorem Move.answers {args : Option SearchArgs} (move : Move s now t args) :
    t.answers = s.answers := by
  rw [answers_eq, answers_eq, move.responses]

theorem Hears.answers {response : Except TransportFault SearchResponse} (told : s.Told)
    (hears : Hears s now response t) :
    t.answers = s.answers ++ (s.hears? (.answer now response)).toList := by
  rw [answers_eq, answers_eq, hears.responses told, List.filterMap_append, hears?_eq]
  cases s.given? (.answer now response) with
  | none => rfl
  | some response => cases response <;> rfl

/-- **The answers of the polls are those that were given in the run.** -/
theorem answers_of_run {present : Instant} {plan : WatchPlan} {cues : List Cue}
    (run : (start now present plan).run? cues = some s) :
    s.answers = (start now present plan).heard cues := by
  rw [answers_eq, responses_of_run run, heard]
  exact (along_filterMap hears?_eq cues).symm

/-! ## A session that is not stopped -/

/-- The events of the changes that remain of the batch. -/
def pending (s : Session) : List WatchEvent :=
  match s.phase with
  | .delivering rest _ _ => rest.map s.plan.eventOf
  | _ => []

theorem pending_of_delivering {rest : List Bug} {last : Option Instant} {next : ResourceVersion}
    (phase : s.phase = .delivering rest last next) : s.pending = rest.map s.plan.eventOf := by
  rw [pending, phase]

theorem pending_eq_nil (left : s.isDelivering = false) : s.pending = [] := by
  rw [isDelivering] at left
  rw [pending]
  generalize s.phase = phase at left ⊢
  cases phase with
  | delivering => cases left
  | pausing | searching | closing | ended => rfl

/-- A session that is not stopped has not ended. -/
theorem Told.ne_ended (told : s.Told) (running : s.signal.isStopped = false) :
    s.phase ≠ .ended := by
  intro phase
  rw [Told, phase] at told
  rw [told.1] at running
  cases running

/-- **What a session that is not stopped has handed over and what remains of its batch are what
the answers call for.** -/
theorem Told.changes_append_pending (told : s.Told) (running : s.signal.isStopped = false) :
    s.changes ++ s.pending = dueStream s.plan.includes s.plan.start s.plan.start s.answers := by
  rw [Told] at told
  rw [changes, answers]
  cases phase : s.phase with
  | pausing wake =>
      rw [phase] at told
      rw [pending, phase, List.append_nil]
      exact told.changes_due.1
  | searching =>
      rw [phase] at told
      obtain ⟨earlier, polls, polled⟩ := told
      have answers : Poll.answers ({ cutoff := s.watermark } :: earlier) = Poll.answers earlier :=
        (Poll.answers_cons _ _).trans (List.append_nil _)
      rw [pending, phase, polls, Poll.changes_cons, answers, List.append_nil,
        ← polled.changes_due.1]
      exact List.append_nil _
  | delivering rest last next =>
      rw [phase] at told
      obtain ⟨earlier, found, done, polls, polled, handing, _⟩ := told
      obtain ⟨changes, watermark⟩ := polled.changes_due
      have answers : Poll.answers (.handing s.plan s.watermark found done :: earlier) =
          Poll.answers earlier ++ [found] := Poll.answers_cons _ _
      rw [pending_of_delivering phase, polls, Poll.changes_cons, answers,
        dueStream_append_singleton, ← watermark, ← changes,
        WatchPlan.dueEvents_of_fresh handing.latest handing.fresh, handing.split, List.map_append,
        ← List.append_assoc]
      rfl
  | closing status | ended =>
      rw [phase] at told
      rw [told.1] at running
      cases running

/-- **A session that is not stopped hands over what the answers call for.** As long as neither a
stop nor the end of the lifetime nor a failed search came and the consumer is there, what it took,
what waits for it and what remains of the batch are the events that the answers of the run call
for, and every poll that another one followed has handed over all that its own answer calls for. A
consumer that keeps receiving has taken all of them once there is no backlog, and until then one of
the two always has a step that lessens the backlog, for a queue of any length. -/
theorem refines_due_stream {args : SearchArgs} {includes : BugInfo → Bool} {config : WatchConfig}
    {version : ResourceVersion} {plan : WatchPlan}
    (opened : WatchPlan.after? args includes config version = some plan) {now : Nat}
    {present : Instant} {s : Session} {cues : List Cue}
    (run : (start now present plan).run? cues = some s) (running : s.signal.isStopped = false)
    (attached : s.attached = true) :
    version.nextVisible? = some plan.start ∧
      s.received ++ s.queue ++ s.pending =
        dueStream includes plan.start plan.start ((start now present plan).heard cues) ∧
      (∀ p ∈ s.polls.tail, ∃ found, p.answer = some (.ok found) ∧
        p.events = dueEvents includes plan.start p.cutoff found) ∧
      (s.backlog = 0 → s.received =
        dueStream includes plan.start plan.start ((start now present plan).heard cues)) ∧
      (s.backlog ≠ 0 → ∀ time, ∃ t, Onward s time t) ∧
      ∀ time t, Onward s time t → t.backlog < s.backlog := by
  have told := told_of_run run
  have passes := passes_of_run run
  have kept : s.plan = plan := plan_of_run run
  have shown := WatchPlan.includes_of_after? opened
  have whole : s.received ++ s.queue ++ s.pending =
      dueStream includes plan.start plan.start ((start now present plan).heard cues) := by
    rw [passes.queued attached, passes.delivered_eq (told.ne_ended running),
      told.changes_append_pending running, answers_of_run run, kept, shown]
  refine ⟨WatchPlan.start_of_after? opened, whole, ?_, ?_, ?_, ?_⟩
  · intro p followed
    obtain ⟨after, concluded⟩ := (history_of_run run).concluded_of_tail followed
    obtain ⟨found, answered, _, events⟩ := concluded.events_due
    exact ⟨found, answered, shown ▸ events⟩
  · intro nothing
    obtain ⟨empty, left⟩ := backlog_eq_zero_iff.mp nothing
    rw [← whole, empty, pending_eq_nil left, List.append_nil, List.append_nil]
  · exact exists_onward (kept ▸ WatchPlan.capacity_pos_of_after? opened)
  · exact fun _ _ => lt_backlog_of_onward

/-- A queue that is asked to hold no event holds one, and a consumer that takes events as they come
gets those of an answer out of order in order. -/
theorem due_stream_received :
    ∃ s, (start 0 .epoch (.sample 6)).run?
        [.proceed 7000, .answer 7000 (.ok ⟨[.sample 2 7 8, .sample 1 0 8]⟩), .proceed 7000,
          .take 7000, .proceed 7000, .take 7000, .proceed 7000] = some s ∧
      s.received = dueStream (fun _ => true) ⟨.onFirstDay 6⟩ ⟨.onFirstDay 6⟩
        [⟨[.sample 2 7 8, .sample 1 0 8]⟩] ∧
      s.received = [.modified (.ofInfo (.sample 1 0 8)), .added (.ofInfo (.sample 2 7 8))] := by
  have batch : (WatchPlan.sample 6).batch ⟨.onFirstDay 6⟩ ⟨[.sample 2 7 8, .sample 1 0 8]⟩ =
      [.ofInfo (.sample 1 0 8), .ofInfo (.sample 2 7 8)] :=
    (WatchPlan.batch_eq_insertionSort _ _ _).trans (by decide)
  have latest : (SearchResponse.mk [.sample 2 7 8, .sample 1 0 8]).latestChange? =
      some ⟨.onFirstDay 8⟩ := rfl
  have run := (run?_accepted run?_firstSearch 7000 rfl rfl latest (by decide) batch
    [.proceed 7000, .take 7000, .proceed 7000, .take 7000, .proceed 7000]).trans rfl
  obtain ⟨_, _, _, received, _⟩ := refines_due_stream WatchPlan.after?_sample run rfl rfl
  exact ⟨_, run, (received rfl).trans (congrArg _ (answers_of_run run).symm), rfl⟩

end Session

end BugFeed
