import BugFeed.Proofs.Watch.Run

/-!
# The polls of a session

A session notes when it begins a search, what it is answered, which events it hands over and how
the poll ends. `Session.polls` reads its polls off these notes, newest first.

The history of a session is determined by the answers (`Session.Told`). A poll that came to its
end was empty or skipped and handed nothing over, or handed over the events of its whole batch
(`Concluded`). The watermark after some polls is the cutoff of the next one (`Polled`). Only the
last poll may be unfinished; if the session broke it off while its consumer was there, the events
handed over end with a second of the batch (`BrokenOff`). Every run keeps this
(`told_of_run`).
-/

namespace BugFeed

set_option autoImplicit false

/-! ## Polls -/

/-- A poll: the cutoff of its search, the answer that the session looked at, the events about bugs
that it handed over, and how it ended. -/
structure Poll where
  cutoff : ResourceVersion
  answer : Option (Except TransportFault SearchResponse) := none
  events : List WatchEvent := []
  outcome : Option PollOutcome := none

namespace Poll

/-- The polls after one more note. -/
def read (polls : List Poll) : Note → List Poll
  | .asked cutoff => { cutoff := cutoff } :: polls
  | .answered response => polls.modifyHead fun p => { p with answer := some response }
  | .delivered (.error _) => polls
  | .delivered event => polls.modifyHead fun p => { p with events := p.events ++ [event] }
  | .polled outcome => polls.modifyHead fun p => { p with outcome := some outcome }
  | .fired _ | .taken _ | .ended => polls

/-- The polls that a log tells of, newest first. -/
def ofLog (log : List (Nat × Note)) : List Poll :=
  log.foldr (fun entry polls => read polls entry.2) []

end Poll

namespace Session

/-- The polls of a session, newest first. -/
def polls (s : Session) : List Poll := Poll.ofLog s.log

/-- An event about a bug belongs to the poll that is under way. -/
theorem polls_push (s : Session) (now : Nat) (b : Bug) :
    (s.push now (s.plan.eventOf b)).polls =
      s.polls.modifyHead fun p => { p with events := p.events ++ [s.plan.eventOf b] } := by
  rw [WatchPlan.eventOf]
  split <;> rfl

end Session

/-! ## What polls come to -/

/-- The beginning of the second of the last of some changes. -/
def lastSecond (done : List Bug) : Option Instant :=
  done.getLast?.map fun b => b.lastChange.truncate

@[simp] theorem lastSecond_append (done : List Bug) (b : Bug) :
    lastSecond (done ++ [b]) = some b.lastChange.truncate := by
  simp [lastSecond]

/-- A poll that came to its end without a fault, and the watermark after it. -/
inductive Concluded (plan : WatchPlan) : Poll → ResourceVersion → Prop where
  /-- The search found nothing. -/
  | empty {cutoff : ResourceVersion} {found : SearchResponse}
      (nothing : found.latestChange? = none) :
      Concluded plan ⟨cutoff, some (.ok found), [], some .empty⟩ cutoff
  /-- The search found nothing later than the watermark. -/
  | skipped {cutoff next : ResourceVersion} {found : SearchResponse}
      (latest : found.latestChange? = some next) (stale : next.isAfter cutoff = false) :
      Concluded plan ⟨cutoff, some (.ok found), [], some .skipped⟩ cutoff
  /-- The whole batch was handed over. -/
  | ok {cutoff next : ResourceVersion} {found : SearchResponse}
      (latest : found.latestChange? = some next) (fresh : next.isAfter cutoff = true) :
      Concluded plan
        ⟨cutoff, some (.ok found), (plan.batch cutoff found).map plan.eventOf, some .ok⟩ next

/-- Polls that all came to their end, newest first, and the watermark after them. -/
inductive Polled (plan : WatchPlan) : List Poll → ResourceVersion → Prop where
  | nil : Polled plan [] plan.start
  | cons {polls : List Poll} {p : Poll} {watermark : ResourceVersion}
      (earlier : Polled plan polls p.cutoff) (last : Concluded plan p watermark) :
      Polled plan (p :: polls) watermark

/-- Every one of some polls that came to their end did. -/
theorem Polled.concluded {plan : WatchPlan} {polls : List Poll} {watermark : ResourceVersion}
    (polled : Polled plan polls watermark) {p : Poll} (member : p ∈ polls) :
    ∃ after, Concluded plan p after := by
  induction polled with
  | nil => cases member
  | cons _ last ih =>
      rcases List.mem_cons.mp member with rfl | member
      · exact ⟨_, last⟩
      · exact ih member

/-- The poll that hands the changes of an answer over, of which those in `done` are. -/
def Poll.handing (plan : WatchPlan) (cutoff : ResourceVersion) (found : SearchResponse)
    (done : List Bug) : Poll where
  cutoff := cutoff
  answer := some (.ok found)
  events := done.map plan.eventOf

/-- The batch of an accepted answer is handed over up to `done`, and `rest` remains. -/
structure Handing (plan : WatchPlan) (cutoff : ResourceVersion) (found : SearchResponse)
    (done rest : List Bug) (next : ResourceVersion) : Prop where
  latest : found.latestChange? = some next
  fresh : next.isAfter cutoff = true
  split : plan.batch cutoff found = done ++ rest

/-- Polls of a session that leaves or has left its work: all came to their end, or the last one
was broken off, during its search, by a fault or before a change. While the consumer is there,
that change is in another second than the one handed over before it. -/
inductive BrokenOff (plan : WatchPlan) (attached : Bool) :
    List Poll → ResourceVersion → Prop where
  | between {polls : List Poll} {watermark : ResourceVersion}
      (polled : Polled plan polls watermark) : BrokenOff plan attached polls watermark
  | unanswered {polls : List Poll} {watermark : ResourceVersion}
      (polled : Polled plan polls watermark) :
      BrokenOff plan attached ({ cutoff := watermark } :: polls) watermark
  | failed {polls : List Poll} {watermark : ResourceVersion} {fault : TransportFault}
      (polled : Polled plan polls watermark) :
      BrokenOff plan attached (⟨watermark, some (.error fault), [], some .error⟩ :: polls) watermark
  | cut {polls : List Poll} {watermark next : ResourceVersion} {found : SearchResponse}
      {done rest : List Bug} {b : Bug} (polled : Polled plan polls watermark)
      (handing : Handing plan watermark found done (b :: rest) next)
      (whole : attached = true → lastSecond done ≠ some b.lastChange.truncate) :
      BrokenOff plan attached (.handing plan watermark found done :: polls) watermark

theorem BrokenOff.mono {plan : WatchPlan} {attached now : Bool} {polls : List Poll}
    {watermark : ResourceVersion} (h : BrokenOff plan attached polls watermark)
    (fewer : now = true → attached = true) : BrokenOff plan now polls watermark := by
  cases h with
  | between polled => exact .between polled
  | unanswered polled => exact .unanswered polled
  | failed polled => exact .failed polled
  | cut polled handing whole => exact .cut polled handing fun h => whole (fewer h)

namespace Session

/-- What is told of the polls while a session is doing something: all came to their end during a
pause; the last one waits for its answer during a search, and is handed over up to a change while
changes are; and the polls of a session that closes or has ended are broken off. -/
def Stands (plan : WatchPlan) (polls : List Poll) (watermark : ResourceVersion)
    (attached stopped : Bool) : Phase → Prop
  | .pausing _ => Polled plan polls watermark
  | .searching =>
      ∃ earlier, polls = { cutoff := watermark } :: earlier ∧ Polled plan earlier watermark
  | .delivering rest last next =>
      ∃ earlier found done, polls = .handing plan watermark found done :: earlier ∧
        Polled plan earlier watermark ∧ Handing plan watermark found done rest next ∧
        last = lastSecond done
  | .closing _ | .ended => stopped = true ∧ BrokenOff plan attached polls watermark

/-- What the notes of a session tell of its polls is what it is doing. -/
def Told (s : Session) : Prop :=
  Stands s.plan s.polls s.watermark s.attached s.signal.isStopped s.phase

theorem told_start (now : Nat) (present : Instant) (plan : WatchPlan) :
    (start now present plan).Told :=
  Polled.nil

/-! ## What does not touch the polls -/

theorem Stands.mono {plan : WatchPlan} {polls : List Poll} {watermark : ResourceVersion}
    {attached attached' stopped stopped' : Bool} {phase : Phase}
    (h : Stands plan polls watermark attached stopped phase)
    (fewer : attached' = true → attached = true) (more : stopped = true → stopped' = true) :
    Stands plan polls watermark attached' stopped' phase := by
  cases phase with
  | pausing wake => exact h
  | searching => exact h
  | delivering rest last next => exact h
  | closing status => exact ⟨more h.1, h.2.mono fewer⟩
  | ended => exact ⟨more h.1, h.2.mono fewer⟩

theorem Told.fire {s : Session} (told : s.Told) (now : Nat) (reason : StopReason) :
    (s.fire now reason).Told := by
  rcases s.fire_cases now reason with ⟨_, same⟩ | ⟨_, fired⟩
  · rw [same]
    exact told
  · rw [fired]
    exact Stands.mono told id fun _ => rfl

theorem Told.close {s : Session} (told : s.Told) : s.close.Told :=
  Stands.mono told (fun h => by cases h) id

theorem Told.take {s t : Session} {now : Nat} {event : WatchEvent} (told : s.Told)
    (h : s.take? now = some (event, t)) : t.Told := by
  simp only [take?] at h
  split at h
  · cases h
  · cases h
    exact told

/-! ## The moves of the session -/

/-- What is told of a session that leaves its work. -/
theorem told_leave {s : Session} (stopped : s.signal.isStopped = true)
    (broken : BrokenOff s.plan s.attached s.polls s.watermark) (now : Nat) :
    (s.leave now).Told := by
  rcases s.leave_cases now with closing | ended
  · rw [closing]
    exact ⟨stopped, broken⟩
  · rw [ended]
    exact ⟨stopped, broken⟩

/-- Where a session may leave its work, its polls are broken off between two seconds. -/
theorem Told.brokenOff {s : Session} (told : s.Told) (point : Leaves s.phase) :
    BrokenOff s.plan s.attached s.polls s.watermark := by
  rw [Told] at told
  generalize s.phase = phase at told point
  cases point with
  | pausing wake => exact .between told
  | searching =>
      obtain ⟨earlier, polls, polled⟩ := told
      rw [polls]
      exact .unanswered polled
  | delivering fresh =>
      obtain ⟨earlier, found, done, polls, polled, handing, second⟩ := told
      rw [polls]
      exact .cut polled handing fun _ => second ▸ fresh

theorem Told.ask {s : Session} {wake : Nat} (told : s.Told) (phase : s.phase = .pausing wake)
    (now : Nat) : (s.ask now).Told := by
  rw [Told, phase] at told
  exact ⟨s.polls, rfl, told⟩

theorem Told.conclude {s : Session} {last : Option Instant} {next : ResourceVersion}
    (told : s.Told) (phase : s.phase = .delivering [] last next) (now : Nat) :
    (({ s with watermark := next }.conclude now .ok).pause now).Told := by
  rw [Told, phase] at told
  obtain ⟨earlier, found, done, polls, polled, ⟨latest, fresh, split⟩, _⟩ := told
  have hpolls : (({ s with watermark := next }.conclude now .ok).pause now).polls =
      Poll.read s.polls (.polled .ok) := rfl
  rw [List.append_nil] at split
  subst split
  change Polled s.plan _ next
  rw [hpolls, polls]
  exact .cons polled (.ok latest fresh)

theorem Told.deliver {s : Session} {b : Bug} {rest : List Bug} {last : Option Instant}
    {next : ResourceVersion} (told : s.Told) (phase : s.phase = .delivering (b :: rest) last next)
    (now : Nat) :
    ({ s with phase := .delivering rest (some b.lastChange.truncate) next }.push now
      (s.plan.eventOf b)).Told := by
  rw [Told, phase] at told
  obtain ⟨earlier, found, done, polls, polled, ⟨latest, fresh, split⟩, _⟩ := told
  refine ⟨earlier, found, done ++ [b], ?_, polled, ⟨latest, fresh, ?_⟩,
    (lastSecond_append done b).symm⟩
  · refine (polls_push _ now b).trans ?_
    change s.polls.modifyHead _ = Poll.handing s.plan s.watermark found (done ++ [b]) :: earlier
    rw [polls, List.modifyHead_cons]
    simp only [Poll.handing, List.map_append, List.map_cons, List.map_nil]
  · rw [List.append_assoc, List.singleton_append]
    exact split

/-- A session whose consumer has left breaks a batch off anywhere. -/
theorem Told.abandon {s : Session} {b : Bug} {rest : List Bug} {last : Option Instant}
    {next : ResourceVersion} (told : s.Told) (phase : s.phase = .delivering (b :: rest) last next)
    (detached : s.attached = false) (now : Nat) : ((s.fire now .finished).finish now).Told := by
  rw [Told, phase] at told
  obtain ⟨earlier, found, done, polls, polled, handing, _⟩ := told
  have broken : BrokenOff s.plan s.attached s.polls s.watermark := by
    rw [polls, detached]
    exact .cut polled handing fun h => by cases h
  rcases s.fire_cases now .finished with ⟨stopped, same⟩ | ⟨_, fired⟩
  · rw [same]
    exact ⟨stopped, broken⟩
  · rw [fired]
    exact ⟨rfl, broken⟩

theorem Told.move {s t : Session} {now : Nat} {args : Option SearchArgs} (told : s.Told)
    (move : Move s now t args) : t.Told := by
  cases move with
  | expire => exact told.fire now .expired
  | leave stopped point => exact told_leave stopped (told.brokenOff point) now
  | ask _ phase => exact told.ask phase now
  | conclude phase => exact told.conclude phase now
  | deliver phase => exact told.deliver phase now
  | abandon phase detached => exact told.abandon phase detached now
  | report phase =>
      rw [Told, phase] at told
      exact told
  | vanish phase =>
      rw [Told, phase] at told
      exact told

/-! ## Answers -/

theorem Told.picks {s t : Session} {now : Nat}
    {response : Except TransportFault SearchResponse} (told : s.Told) (phase : s.phase = .searching)
    (picks : Picks s now response t) : t.Told := by
  rw [Told, phase] at told
  obtain ⟨earlier, polls, polled⟩ := told
  cases picks with
  | @failed fault =>
      have broken : BrokenOff s.plan s.attached
          (Poll.read (Poll.read s.polls (.answered (.error fault))) (.polled .error))
          s.watermark := by
        rw [polls]
        exact .failed polled
      rcases ((s.note now (.answered (.error fault))).conclude now .error).fire_cases now .failed
        with ⟨stopped, same⟩ | ⟨_, fired⟩
      · rw [same]
        exact ⟨stopped, broken⟩
      · rw [fired]
        exact ⟨rfl, broken⟩
  | @empty found nothing =>
      change Polled s.plan
        (Poll.read (Poll.read s.polls (.answered (.ok found))) (.polled .empty)) s.watermark
      rw [polls]
      exact .cons polled (.empty nothing)
  | @skipped found next latest stale =>
      change Polled s.plan
        (Poll.read (Poll.read s.polls (.answered (.ok found))) (.polled .skipped)) s.watermark
      rw [polls]
      exact .cons polled (.skipped latest stale)
  | @accepted found next latest fresh =>
      refine ⟨earlier, found, [], ?_, polled, ⟨latest, fresh, rfl⟩, rfl⟩
      change Poll.read s.polls (.answered (.ok found)) = _
      rw [polls]
      rfl

theorem Told.hears {s t : Session} {now : Nat}
    {response : Except TransportFault SearchResponse} (told : s.Told)
    (hears : Hears s now response t) : t.Told := by
  cases hears with
  | unasked => exact told
  | late phase stopped => exact told_leave stopped (told.brokenOff (phase ▸ .searching)) now
  | picked phase _ picks => exact told.picks phase picks

/-! ## Runs -/

theorem Told.follow {s t : Session} {cue : Cue} (h : s.follow? cue = some t) (told : s.Told) :
    t.Told := by
  cases cue with
  | expire now => exact told.move (move_of_expire h)
  | proceed now =>
      obtain ⟨⟨u, args⟩, move, same⟩ := Option.map_eq_some_iff.mp h
      cases same
      exact told.move (move_of_proceed move)
  | answer now response =>
      cases h
      exact told.hears (hears_answer s now response)
  | take now =>
      obtain ⟨⟨event, u⟩, taken, same⟩ := Option.map_eq_some_iff.mp h
      cases same
      exact told.take taken
  | stop now =>
      cases h
      exact told.fire now .requested
  | close =>
      cases h
      exact told.close
  | drop now =>
      cases h
      have emptied : ({ s.close with queue := [] } : Session).Told := told.close
      exact emptied.fire now .requested

/-- **What the notes of a session tell of its polls is what it is doing, in every run.** -/
theorem told_of_run {now : Nat} {present : Instant} {plan : WatchPlan} {s : Session}
    {cues : List Cue} (run : (start now present plan).run? cues = some s) : s.Told :=
  run?_preserves (fun h told => told.follow h) run (told_start now present plan)

end Session

end BugFeed
