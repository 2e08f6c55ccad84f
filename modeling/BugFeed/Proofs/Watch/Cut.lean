import BugFeed.Proofs.Watch.Threads

/-!
# Where a stop cuts a batch

A change tells the consumer that its whole second has been seen, so a session that is stopped, by
someone or by the end of its lifetime, hands the rest of the second over that it has begun, and
nothing after it (`only_begun_second`). A batch is in the order of the change times and the
beginning of a second keeps that order, in leap seconds also, so the changes of one second stand
together and no second is cut in two (`Handing.apart`).

The watermark stays at the cutoff of a batch of which anything is left out. It moves after a stop
only if all that was left of the batch were changes of the second that had been begun, or nothing at
all (`watermark_of_stopped`): the batch then comes to its end as if there had been no stop
(`Task.watermark_moves_after_stop`).

A consumer that is gone is told nothing more, and its batch may be cut anywhere
(`Task.silent_once_detached`).

A stop is one that the task of the session has not overlooked. If it has looked at its signal before
the stop and does what it looked for after it, all this holds from then on.
-/

namespace BugFeed

set_option autoImplicit false

/-! ## Seconds of a batch -/

/-- No second has changes on both sides. -/
def Apart (done rest : List Bug) : Prop :=
  ∀ a ∈ done, ∀ b ∈ rest, a.lastChange.truncate ≠ b.lastChange.truncate

theorem Apart.nil (rest : List Bug) : Apart [] rest := fun _ member => by cases member

theorem Apart.all (done : List Bug) : Apart done [] := fun _ _ _ member => by cases member

variable {plan : WatchPlan} {polls : List Poll} {p : Poll} {watermark : ResourceVersion}

/-- **A batch that is cut where a second begins is cut between two seconds.** -/
theorem Handing.apart {cutoff next : ResourceVersion} {found : SearchResponse}
    {done rest : List Bug} {first : Bug}
    (handing : Handing plan cutoff found done (first :: rest) next)
    (whole : lastSecond done ≠ some first.lastChange.truncate) : Apart done (first :: rest) := by
  rcases List.eq_nil_or_concat done with rfl | ⟨earlier, last, rfl⟩
  · exact .nil _
  · rw [List.concat_eq_append] at *
    rw [lastSecond_append] at whole
    obtain ⟨upToLast, border, fromFirst⟩ := plan.border_of_split handing.split
    intro a handed b withheld same
    -- A second with changes on both sides would hold the two changes at the border.
    have toLast := Instant.truncate_eq_of_between (upToLast a handed)
      (le_trans border (fromFirst b withheld)) same
    have toFirst := Instant.truncate_eq_of_between (le_trans (upToLast a handed) border)
      (fromFirst b withheld) same
    exact whole (congrArg some (toLast.symm.trans toFirst))

/-! ## Polls of a session that has left its work -/

theorem Concluded.apart {after : ResourceVersion} (concluded : Concluded plan p after) :
    ∃ done rest, p.HandsOver plan done rest ∧ Apart done rest := by
  cases concluded with
  | empty => exact ⟨[], _, ⟨rfl, rfl⟩, .nil _⟩
  | skipped => exact ⟨[], _, ⟨rfl, rfl⟩, .nil _⟩
  | ok => exact ⟨_, [], ⟨(List.append_nil _).symm, rfl⟩, .all _⟩

theorem BrokenOff.apart (broken : BrokenOff plan true polls watermark) (member : p ∈ polls) :
    ∃ done rest, p.HandsOver plan done rest ∧ Apart done rest := by
  have settled : ∀ {earlier : List Poll} {w : ResourceVersion}, Polled plan earlier w →
      p ∈ earlier → ∃ done rest, p.HandsOver plan done rest ∧ Apart done rest := by
    intro earlier w polled inside
    obtain ⟨after, concluded⟩ := polled.concluded inside
    exact concluded.apart
  cases broken with
  | between polled => exact settled polled member
  | unanswered polled =>
      rcases List.mem_cons.mp member with rfl | inside
      · exact ⟨[], [], ⟨rfl, rfl⟩, .nil _⟩
      · exact settled polled inside
  | failed polled =>
      rcases List.mem_cons.mp member with rfl | inside
      · exact ⟨[], [], ⟨rfl, rfl⟩, .nil _⟩
      · exact settled polled inside
  | cut polled handing whole =>
      rcases List.mem_cons.mp member with rfl | inside
      · exact ⟨_, _, ⟨handing.split, rfl⟩, handing.apart (whole rfl)⟩
      · exact settled polled inside

/-- The watermark is the cutoff of the newest poll, unless the poll handed its whole batch over:
then it is what the poll came to. -/
theorem History.watermark_cases {earlier : List Poll}
    (history : History plan (p :: earlier) watermark) :
    watermark = p.cutoff ∨
      p.outcome = some .ok ∧ p.reported = p.batch plan ∧ watermark = p.reached := by
  cases history with
  | underway => exact .inl rfl
  | settled polled =>
      cases polled with
      | cons _ last =>
          have reached := last.answered.2
          cases last with
          | empty => exact .inl rfl
          | skipped => exact .inl rfl
          | ok => exact .inr ⟨rfl, Poll.filterMap_bug?_eventOf plan _, reached⟩

/-! ## After a stop -/

namespace Session

variable {s t : Session} {cue : Cue}

/-- The second of the last change that the newest poll handed over. -/
def begun (s : Session) : Option Instant := s.polls.head?.bind fun p => lastSecond p.reported

theorem begun_congr (same : t.polls.map Poll.events = s.polls.map Poll.events) :
    t.begun = s.begun := by
  have read : ∀ u : Session, u.begun = (u.polls.map Poll.events).head?.bind fun events =>
      lastSecond (events.filterMap WatchEvent.bug?) := by
    intro u
    rw [begun, List.head?_map, Option.bind_map]
    rfl
  rw [read, read, same]

theorem Told.begun_eq {rest : List Bug} {last : Option Instant} {next : ResourceVersion}
    (told : s.Told) (phase : s.phase = .delivering rest last next) : s.begun = last := by
  rw [Told, phase] at told
  obtain ⟨earlier, found, done, polls, _, _, second⟩ := told
  rw [begun, polls, second]
  exact congrArg lastSecond (Poll.filterMap_bug?_eventOf s.plan done)

/-- What a session that has been stopped does to its traffic: nothing passes, or one more change of
the second that was begun, or the fault that ends it, or the consumer takes an event. -/
theorem only_begun_second_step (told : s.Told) (stopped : s.signal.isStopped = true)
    (h : s.follow? cue = some t) :
    t.signal.isStopped = true ∧ s.begins? cue = none ∧ t.begun = s.begun ∧
      ∃ more : List Bug, t.changes = s.changes ++ more.map s.plan.eventOf ∧
        ∀ b ∈ more, s.begun = some b.lastChange.truncate := by
  have kept : t.changes = s.changes → ∃ more : List Bug,
      t.changes = s.changes ++ more.map s.plan.eventOf ∧
        ∀ b ∈ more, s.begun = some b.lastChange.truncate := fun same =>
    ⟨[], same.trans (List.append_nil _).symm, fun _ member => by cases member⟩
  have after : t.Told := told.follow h
  have traffic := traffic_of_follow h
  generalize s.begins? cue = args at traffic
  cases traffic with
  | quiet quiet => exact ⟨quiet.stopped stopped, rfl, begun_congr quiet.events, kept quiet.changes⟩
  | ask running =>
      rw [running] at stopped
      cases stopped
  | @deliver now b rest last next phase room attached within =>
      have second := within stopped
      have before := told.begun_eq phase
      refine ⟨stopped, rfl, ?_, [b], told.changes_deliver phase now, ?_⟩
      · rw [before, second]
        exact after.begun_eq rfl
      · intro c member
        rw [List.mem_singleton.mp member, before, second]
  | @report now status phase attached =>
      have quiet : Quiet (s.push now (.error status)) ((s.push now (.error status)).finish now) :=
        .finish (by rw [phase_push, phase]; nofun)
      have pushed : (s.push now (.error status)).polls = s.polls := rfl
      exact ⟨quiet.stopped stopped, rfl, begun_congr (quiet.events.trans (by rw [pushed])),
        kept (quiet.changes.trans (congrArg Poll.changes pushed))⟩
  | @take now event _ taken =>
      have same := (queue_of_take taken).2
      have events : t.polls.map Poll.events = s.polls.map Poll.events := by
        rw [same]
        exact events_note _ now rfl rfl
      refine ⟨?_, rfl, begun_congr events, kept (Poll.changes_congr events)⟩
      rw [same]
      exact stopped

/-- **A session that has been stopped begins no search, and hands over nothing but changes of the
second that it had begun.** -/
theorem only_begun_second (told : s.Told) (stopped : s.signal.isStopped = true)
    {later : List Cue} (run : s.run? later = some t) :
    s.searches later = [] ∧
      ∃ more : List Bug, t.changes = s.changes ++ more.map s.plan.eventOf ∧
        ∀ b ∈ more, s.begun = some b.lastChange.truncate := by
  induction later generalizing s with
  | nil =>
      cases run
      exact ⟨rfl, [], (List.append_nil _).symm, fun _ member => by cases member⟩
  | cons cue later ih =>
      obtain ⟨u, first, rest⟩ := Option.bind_eq_some_iff.mp run
      obtain ⟨still, none_begun, same, some_more, handed, within⟩ :=
        only_begun_second_step told stopped first
      obtain ⟨none_later, others, handedLater, withinLater⟩ := ih (told.follow first) still rest
      refine ⟨?_, some_more ++ others, ?_, ?_⟩
      · exact (along_cons first later).trans (by rw [none_begun, ← searches, none_later]; rfl)
      · rw [handedLater, handed, plan_follow first, List.map_append, List.append_assoc]
      · intro b member
        rcases List.mem_append.mp member with here | after
        · exact within b here
        · rw [← same]
          exact withinLater b after

/-- No search begins in a run once the session has been stopped. -/
theorem cutoffs_of_stopped (told : s.Told) (stopped : s.signal.isStopped = true)
    {later : List Cue} (run : s.run? later = some t) : t.cutoffs = s.cutoffs := by
  have searched := searches_of_run run
  rw [(only_begun_second told stopped run).1, List.append_nil, plan_of_run run] at searched
  refine (List.map_injective_iff.mpr ?_) searched
  intro c d same
  cases c
  cases d
  simpa [WatchPlan.searchSince] using same

/-! ## The watermark after a stop -/

/-- Nothing is left of the batch but changes of the second that was begun, and after them the
watermark moves to `next`. -/
def FinishesSecond (s : Session) (next : ResourceVersion) : Prop :=
  ∃ rest last, s.phase = .delivering rest last next ∧
    ∀ b ∈ rest, last = some b.lastChange.truncate

/-- What a cue does to a batch of a session that has been stopped: nothing, or it hands a change of
the second over that was begun, or it leaves the batch, with a new watermark only if nothing was
left. -/
theorem batch_of_stopped (stopped : s.signal.isStopped = true) (h : s.follow? cue = some t) :
    (t.phase = s.phase ∧ t.watermark = s.watermark) ∨
      (∃ b rest next, s.phase = .delivering (b :: rest) (some b.lastChange.truncate) next ∧
        t.phase = .delivering rest (some b.lastChange.truncate) next ∧
        t.watermark = s.watermark) ∨
      (t.isDelivering = false ∧
        (t.watermark = s.watermark ∨ ∃ last, s.phase = .delivering [] last t.watermark)) := by
  have left (now : Nat) :
      (s.leave now).isDelivering = false ∧ (s.leave now).watermark = s.watermark := by
    rcases s.leave_cases now with closing | ended
    · rw [closing]
      exact ⟨rfl, rfl⟩
    · rw [ended]
      exact ⟨rfl, rfl⟩
  cases windsDown_of_follow stopped h with
  | proceed proceeds =>
      cases move_of_proceed proceeds with
      | expire running | ask running =>
          rw [stopped] at running
          cases running
      | @leave now => exact .inr (.inr ⟨(left _).1, .inl (left _).2⟩)
      | @conclude last next phase => exact .inr (.inr ⟨rfl, .inr ⟨last, phase⟩⟩)
      | @deliver b rest last next phase _ _ begun =>
          rw [begun stopped] at phase
          exact .inr (.inl ⟨b, rest, next, phase, rfl, rfl⟩)
      | abandon =>
          rw [fire_of_stopped stopped]
          exact .inr (.inr ⟨rfl, .inl rfl⟩)
      | report | vanish => exact .inr (.inr ⟨rfl, .inl rfl⟩)
  | late => exact .inr (.inr ⟨(left _).1, .inl (left _).2⟩)
  | take taken =>
      rw [(queue_of_take taken).2]
      exact .inl ⟨rfl, rfl⟩
  | unasked | stop | close | drop => exact .inl ⟨rfl, rfl⟩

theorem FinishesSecond.delivering {next : ResourceVersion} (finishes : s.FinishesSecond next) :
    s.isDelivering = true := by
  obtain ⟨rest, last, phase, _⟩ := finishes
  exact isDelivering_iff.mpr ⟨rest, last, next, phase⟩

/-- **The watermark of a session that has been stopped moves only if it finishes the last second of
its batch**, and then to the latest change of the answer. -/
theorem watermark_of_stopped (stopped : s.signal.isStopped = true) {later : List Cue}
    (run : s.run? later = some t) :
    t.watermark = s.watermark ∨ s.FinishesSecond t.watermark := by
  induction later generalizing s with
  | nil =>
      cases run
      exact .inl rfl
  | cons cue later ih =>
      obtain ⟨u, first, rest⟩ := Option.bind_eq_some_iff.mp run
      have after := ih (by rw [signal_follow stopped first, stopped]) rest
      rcases batch_of_stopped stopped first with ⟨phase, same⟩ |
        ⟨b, rest, next, before, phase, same⟩ | ⟨left, moved⟩
      · rwa [same, FinishesSecond, phase] at after
      · rcases after with kept | ⟨rest', last, phase', within⟩
        · exact .inl (kept.trans same)
        · rw [phase] at phase'
          cases phase'
          refine .inr ⟨b :: rest, _, before, fun c member => ?_⟩
          rcases List.mem_cons.mp member with rfl | further
          · rfl
          · exact within c further
      · have kept : t.watermark = u.watermark := by
          rcases after with kept | finishes
          · exact kept
          · rw [finishes.delivering] at left
            cases left
        rw [kept]
        rcases moved with same | ⟨last, phase⟩
        · exact .inl same
        · exact .inr ⟨[], last, phase, fun _ member => by cases member⟩

/-- A poll after which the watermark has moved handed its whole batch over. -/
theorem completed_of_moved (told : s.Told) (after : t.Told) (plan : t.plan = s.plan)
    (cutoffs : t.cutoffs = s.cutoffs) (finishes : s.FinishesSecond t.watermark) :
    ∃ p ∈ t.polls.head?, p.outcome = some .ok ∧ p.reported = p.batch s.plan ∧
      t.watermark = p.reached := by
  obtain ⟨rest, last, phase, _⟩ := finishes
  rw [Told, phase] at told
  obtain ⟨earlier, found, done, polls, _, ⟨_, fresh, _⟩, _⟩ := told
  have cutoffs' : t.polls.map Poll.cutoff = s.polls.map Poll.cutoff := by
    rw [Session.cutoffs, Session.cutoffs, List.map_reverse, List.map_reverse] at cutoffs
    exact List.reverse_injective cutoffs
  rw [polls, List.map_cons] at cutoffs'
  obtain ⟨p, older, newest, cutoff, _⟩ := List.map_eq_cons_iff.mp cutoffs'
  have history := after.history
  rw [newest, plan] at history
  refine ⟨p, by rw [newest]; rfl, ?_⟩
  rcases history.watermark_cases with stays | completed
  · have later := ResourceVersion.isAfter_iff.mp fresh
    rw [stays, cutoff] at later
    exact absurd later (lt_irrefl _)
  · exact completed

/-! ## A consumer that is gone -/

theorem silent_step (detached : s.attached = false) (h : s.follow? cue = some t) :
    t.attached = false ∧ t.delivered = s.delivered := by
  have traffic := traffic_of_follow h
  generalize s.begins? cue = args at traffic
  cases traffic with
  | quiet quiet =>
      refine ⟨eq_false_of_ne_true fun still => ?_, quiet.delivered⟩
      rw [quiet.attached still] at detached
      cases detached
  | @ask now =>
      exact ⟨detached, (delivered_note _ now (.asked s.watermark)).trans (List.append_nil _)⟩
  | deliver _ _ attached =>
      rw [attached] at detached
      cases detached
  | report _ attached =>
      rw [attached] at detached
      cases detached
  | @take now event _ taken =>
      rw [(queue_of_take taken).2]
      exact ⟨detached, (delivered_note _ now (.taken event)).trans (List.append_nil _)⟩

/-! ## Every poll of a session -/

/-- While a session hands no batch over, its polls are broken off between two seconds at most. -/
theorem Told.brokenOff_of_left (told : s.Told) (left : s.isDelivering = false) :
    BrokenOff s.plan s.attached s.polls s.watermark := by
  rw [isDelivering] at left
  cases phase : s.phase with
  | pausing wake => exact told.brokenOff (phase ▸ .pausing wake)
  | searching => exact told.brokenOff (phase ▸ .searching)
  | delivering =>
      rw [phase] at left
      cases left
  | closing status | ended =>
      rw [Told, phase] at told
      exact told.2

/-- The polls of a session whose consumer is there are cut between two seconds, unless the newest
one still hands its batch over. -/
theorem Told.apart (told : s.Told) (attached : s.attached = true) {p : Poll} (member : p ∈ s.polls)
    (past : p ∈ s.polls.tail ∨ s.isDelivering = false) :
    ∃ done rest, p.HandsOver s.plan done rest ∧ Apart done rest := by
  rcases past with followed | left
  · obtain ⟨after, concluded⟩ := told.history.concluded_of_tail followed
    exact concluded.apart
  · have broken := told.brokenOff_of_left left
    rw [attached] at broken
    exact broken.apart member

end Session

namespace Task

variable {t u : Task} {now : Nat}

/-! ## A session among other threads -/

theorem silent_follow (sound : t.Sound) (detached : t.session.attached = false) {cue : Cue}
    (h : t.follow? cue = some u) :
    u.session.attached = false ∧ u.session.delivered = t.session.delivered := by
  have fits := sound.fits
  cases step_of_follow h with
  | session _ follows => exact Session.silent_step detached follows
  | @ask now =>
      refine ⟨detached, ?_⟩
      exact (Session.delivered_note _ now (.asked t.session.watermark)).trans (List.append_nil _)
  | handOver _ phase handed =>
      rcases Session.handOver_cases handed with ⟨_, rfl⟩ | ⟨attached, _⟩
      · refine ⟨(t.session.attached_fire _ .finished).trans detached, ?_⟩
        exact (Session.Quiet.abandon (by rw [phase]; nofun)).delivered
      · rw [attached] at detached
        cases detached
  | @settle now response holds =>
      rw [holds] at fits
      have picks := t.session.picks_pickUp now response
      exact ⟨picks.attached.trans detached, (picks.quiet fits).delivered⟩
  | look | pickUp | wait => exact ⟨detached, rfl⟩

/-- **A consumer that is gone is told nothing more**, not even the fault that ends the session. -/
theorem silent_once_detached (sound : t.Sound) (detached : t.session.attached = false)
    {later : List Cue} (run : t.run? later = some u) :
    u.session.delivered = t.session.delivered :=
  (run?_preserves (P := fun v => v.Sound ∧ v.session.attached = false ∧
      v.session.delivered = t.session.delivered)
    (fun h ⟨sound, detached, same⟩ =>
      have silent := silent_follow sound detached h
      ⟨sound.follow h, silent.1, silent.2.trans same⟩) run ⟨sound, detached, rfl⟩).2.2

/-- One step of events on their way: the task hands a change over or leaves its batch, or the
consumer takes an event. -/
inductive Onward (t : Task) (now : Nat) (u : Task) : Prop where
  | hand (delivering : t.session.isDelivering = true)
      (proceeds : t.follow? (.session (.proceed now)) = some u)
  | act (delivering : t.session.isDelivering = true) (acts : t.follow? (.act now) = some u)
  | take (takes : t.follow? (.session (.take now)) = some u)

/-- A step onward lessens the backlog. -/
theorem lt_backlog_of_onward (sound : t.Sound) (onward : Onward t now u) :
    u.session.backlog < t.session.backlog := by
  cases onward with
  | hand delivering proceeds =>
      cases step_of_follow proceeds with
      | session _ follows => exact Session.lt_backlog_of_onward (.hand delivering follows)
  | take takes =>
      cases step_of_follow takes with
      | session _ follows => exact Session.lt_backlog_of_onward (.take follows)
  | act delivering acts =>
      cases step_of_follow acts with
      | ask _ phase => simp [Session.isDelivering, phase] at delivering
      | handOver _ phase handed =>
          rw [Session.backlog_of_delivering phase]
          exact Session.backlog_handOver_lt handed
      | settle holds =>
          have searching : t.session.phase = .searching := by
            have fits := sound.fits
            rwa [holds] at fits
          simp [Session.isDelivering, searching] at delivering

/-- While a session hands changes over, its task or its consumer has a step onward at any time. -/
theorem exists_onward (sound : t.Sound) (room : 0 < t.session.plan.capacity)
    (delivering : t.session.isDelivering = true) (now : Nat) : ∃ u, Onward t now u := by
  have fits := sound.fits
  obtain ⟨rest, last, next, phase⟩ := Session.isDelivering_iff.mp delivering
  rw [phase] at fits
  cases view : t.view with
  | away =>
      have behind : t.session.backlog ≠ 0 := fun nothing => by
        rw [(Session.backlog_eq_zero_iff.mp nothing).2] at delivering
        cases delivering
      obtain ⟨s, onward⟩ := Session.exists_onward room behind now
      cases onward with
      | hand _ proceeds =>
          exact ⟨_, .hand delivering (follow?_session (View.isAway_iff.mpr view) proceeds)⟩
      | take takes => exact ⟨_, .take (follow?_session rfl takes)⟩
  | clear =>
      rw [view] at fits
      cases rest with
      | nil => cases fits
      | cons b rest =>
          rcases exists_act_or_take view phase room now with ⟨u, acts⟩ | ⟨u, takes⟩
          · exact ⟨u, .act delivering acts⟩
          · exact ⟨u, .take takes⟩
  | holding =>
      rw [view] at fits
      cases fits

/-- **A batch is cut only between two seconds.** What a poll hands over is the beginning of its
batch. While the consumer is there, no second of a batch has been handed over in part, once the
session has left the batch; and a consumer that keeps receiving brings it there, as the task or the
consumer always has a step that lessens the backlog. Once the session has been stopped and its task
is not between a look at the signal and what it looked for, it begins no search and hands over
nothing but changes of the second that it had begun. The watermark moves after that only if these
were all that was left of the batch, or nothing was, and then the newest poll comes to its end with
its whole batch handed over. Once the consumer is gone, nothing more is handed over. -/
theorem cut_between_seconds {args : SearchArgs} {includes : BugInfo → Bool} {config : WatchConfig}
    {version : ResourceVersion} {plan : WatchPlan}
    (opened : WatchPlan.after? args includes config version = some plan)
    {present : Instant} {cues : List Cue} (run : (start now present plan).run? cues = some t) :
    (∀ p ∈ t.session.polls, ∃ done rest, p.HandsOver plan done rest ∧
        (t.session.attached = true → p ∈ t.session.polls.tail ∨ t.session.isDelivering = false →
          Apart done rest)) ∧
      (t.session.isDelivering = true → ∀ time, ∃ u, Onward t time u) ∧
      (∀ time u, Onward t time u → u.session.backlog < t.session.backlog) ∧
      ∀ later u, t.run? later = some u →
        (t.session.signal.isStopped = true → t.view = .away →
          u.session.cutoffs = t.session.cutoffs ∧
          (∃ more : List Bug, u.session.changes = t.session.changes ++ more.map plan.eventOf ∧
            ∀ b ∈ more, t.session.begun = some b.lastChange.truncate) ∧
          (u.session.watermark = t.session.watermark ∨
            (∃ rest last, t.session.phase = .delivering rest last u.session.watermark ∧
              ∀ b ∈ rest, t.session.begun = some b.lastChange.truncate) ∧
            ∃ p ∈ u.session.polls.head?, p.outcome = some .ok ∧ p.reported = p.batch plan ∧
              u.session.watermark = p.reached)) ∧
        (t.session.attached = false → u.session.delivered = t.session.delivered) := by
  have sound := sound_of_run run
  have told := sound.lawful.told
  have kept : t.session.plan = plan := plan_of_run run
  have room := WatchPlan.capacity_pos_of_after? opened
  refine ⟨?_, exists_onward sound (kept ▸ room), fun _ _ => lt_backlog_of_onward sound, ?_⟩
  · intro p member
    by_cases past : t.session.attached = true ∧
        (p ∈ t.session.polls.tail ∨ t.session.isDelivering = false)
    · obtain ⟨done, rest, hands, apart⟩ := told.apart past.1 member past.2
      exact ⟨done, rest, kept ▸ hands, fun _ _ => apart⟩
    · obtain ⟨done, rest, hands⟩ := told.history.handsOver member
      exact ⟨done, rest, kept ▸ hands, fun attached left => absurd ⟨attached, left⟩ past⟩
  · intro later u after
    refine ⟨fun stopped away => ?_, fun detached => silent_once_detached sound detached after⟩
    obtain ⟨steps, _, alone, _⟩ := session_of_stopped stopped away after
    have unasked := Session.cutoffs_of_stopped told stopped alone
    refine ⟨unasked, kept ▸ (Session.only_begun_second told stopped alone).2, ?_⟩
    rcases Session.watermark_of_stopped stopped alone with same | finishes
    · exact .inl same
    · have later : u.session.Told := Session.run?_preserves (fun h told => told.follow h) alone told
      have completed := Session.completed_of_moved told later (Session.plan_of_run alone) unasked
        finishes
      obtain ⟨rest, last, phase, within⟩ := finishes
      refine .inr ⟨⟨rest, last, phase, ?_⟩, kept ▸ completed⟩
      rwa [told.begun_eq phase]

/-- A stop between two changes of one second lets the second come to its end, and leaves the change
of the next one out. The watermark stays. -/
theorem stop_keeps_second_whole :
    ∃ t u, (start 0 .epoch (.sample 6)).run?
        [.session (.proceed 7000), .look 7000,
          .pickUp (.ok ⟨[.sample 1 0 8, .sample 2 0 8, .sample 3 0 9]⟩), .act 7000, .look 7000,
          .act 7000, .session (.stop 7000)] = some t ∧
      t.run? [.session (.take 7000), .session (.proceed 7000), .session (.take 7000),
        .session (.proceed 7000)] = some u ∧
      u.session.phase = .ended ∧
      u.session.changes =
        [.modified (.ofInfo (.sample 1 0 8)), .modified (.ofInfo (.sample 2 0 8))] ∧
      u.session.cutoffs = t.session.cutoffs ∧
      (∃ more : List Bug,
        u.session.changes = t.session.changes ++ more.map (WatchPlan.sample 6).eventOf ∧
          ∀ b ∈ more, t.session.begun = some b.lastChange.truncate) ∧
      u.session.watermark = ⟨.onFirstDay 6⟩ := by
  have batch : (WatchPlan.sample 6).batch ⟨.onFirstDay 6⟩
      ⟨[.sample 1 0 8, .sample 2 0 8, .sample 3 0 9]⟩ =
      [.ofInfo (.sample 1 0 8), .ofInfo (.sample 2 0 8), .ofInfo (.sample 3 0 9)] :=
    WatchPlan.batch_of_pairwise (by decide)
  have latest : (SearchResponse.mk [.sample 1 0 8, .sample 2 0 8, .sample 3 0 9]).latestChange? =
      some ⟨.onFirstDay 9⟩ := rfl
  have run := (run?_accepted run?_firstSearch 7000 rfl rfl latest (by decide) batch
    [.look 7000, .act 7000, .session (.stop 7000)]).trans rfl
  obtain ⟨_, _, _, onward⟩ := cut_between_seconds WatchPlan.after?_sample run
  obtain ⟨searched, handed, _⟩ :=
    (onward [.session (.take 7000), .session (.proceed 7000), .session (.take 7000),
      .session (.proceed 7000)] _ rfl).1 rfl rfl
  exact ⟨_, _, run, rfl, rfl, rfl, searched, handed, rfl⟩

/-- A stop between two changes of the last second of a batch: the batch comes to its end and the
watermark moves. Until its consumer takes an event, the second is handed over in part. -/
theorem watermark_moves_after_stop :
    ∃ t u, (start 0 .epoch (.sample 6)).run?
        [.session (.proceed 7000), .look 7000, .pickUp (.ok ⟨[.sample 1 0 8, .sample 2 0 8]⟩),
          .act 7000, .look 7000, .act 7000, .session (.stop 7000)] = some t ∧
      t.session.signal.isStopped = true ∧ t.view = .away ∧ t.session.attached = true ∧
      t.session.changes = [.modified (.ofInfo (.sample 1 0 8))] ∧
      t.session.watermark = ⟨.onFirstDay 6⟩ ∧
      t.run? [.session (.take 7000), .session (.proceed 7000), .session (.proceed 7000),
        .session (.proceed 7000)] = some u ∧
      u.session.phase = .ended ∧ u.session.attached = true ∧
      u.session.changes =
        [.modified (.ofInfo (.sample 1 0 8)), .modified (.ofInfo (.sample 2 0 8))] ∧
      u.session.watermark = ⟨.onFirstDay 8⟩ := by
  have batch : (WatchPlan.sample 6).batch ⟨.onFirstDay 6⟩ ⟨[.sample 1 0 8, .sample 2 0 8]⟩ =
      [.ofInfo (.sample 1 0 8), .ofInfo (.sample 2 0 8)] :=
    WatchPlan.batch_of_pairwise (by decide)
  have latest : (SearchResponse.mk [.sample 1 0 8, .sample 2 0 8]).latestChange? =
      some ⟨.onFirstDay 8⟩ := rfl
  have run := (run?_accepted run?_firstSearch 7000 rfl rfl latest (by decide) batch
    [.look 7000, .act 7000, .session (.stop 7000)]).trans rfl
  exact ⟨_, _, run, rfl, rfl, rfl, rfl, rfl, rfl, rfl, rfl, rfl, rfl⟩

end Task

end BugFeed
