import BugFeed.Proofs.Watch.Threads
import Mathlib.Data.Prod.Lex

/-!
# The stream of a session

What a consumer receives from a session are events about bugs and after them at most one fault,
which is the last event (`Task.stream_grammar`). The fault tells what ended the session: a search
failure that its task picked up, or else the end of its lifetime, and there is none if someone
stopped it. A task that has seen the signal fired picks nothing up. One that looked just before
someone stopped the session may still pick a failure up, and tells it (`Task.failure_after_stop`).

A session that has been stopped comes to its end as long as its consumer keeps receiving: one of
the two always has a step, and each step lessens what remains (`exists_settles`,
`remaining_lt_of_settles`).
-/

namespace BugFeed

set_option autoImplicit false

namespace Session

variable {s t : Session} {now : Nat}

/-! ## What is received -/

theorem mem_reports_iff {status : Status} : status ∈ s.reports ↔ .error status ∈ s.delivered := by
  rw [reports, List.mem_filterMap]
  constructor
  · rintro ⟨event, member, tells⟩
    cases event with
    | added b => cases tells
    | modified b => cases tells
    | error other =>
        cases tells
        exact member
  · intro member
    exact ⟨_, member, rfl⟩

/-- What a consumer received are events about bugs, and after them at most the fault with which the
session has ended; then nothing waits for it. -/
theorem Lawful.received_eq (lawful : s.Lawful) :
    ∃ (changes : List WatchEvent) (fault : Option Status),
      s.received = changes ++ fault.toList.map .error ∧
        (∀ event ∈ changes, ∃ b, event = s.plan.eventOf b) ∧
        (fault ≠ none → s.phase = .ended ∧ s.queue = []) := by
  obtain ⟨fault, delivered, unless_ended⟩ := lawful.passes.told
  have received := lawful.passes.received_prefix_delivered
  have within : s.received <+: s.changes → ∀ event ∈ s.received, ∃ b, event = s.plan.eventOf b :=
    fun part event member => lawful.told.about_bugs (part.subset member)
  cases fault with
  | none =>
      rw [delivered] at received
      exact ⟨s.received, none, (List.append_nil _).symm, within (by simpa using received),
        fun some => absurd rfl some⟩
  | some status =>
      change s.delivered = s.changes ++ [.error status] at delivered
      rw [delivered] at received
      rcases List.prefix_concat_iff.mp received with whole | part
      · refine ⟨s.changes, some status, whole, fun _ member => lawful.told.about_bugs member, ?_⟩
        intro _
        have ended : s.phase = .ended := by
          by_contra open_
          cases unless_ended open_
        refine ⟨ended, ?_⟩
        have inOrder := lawful.passes.inOrder.length_le
        rw [delivered, ← whole, List.length_append] at inOrder
        exact List.length_eq_zero_iff.mp (by omega)
      · exact ⟨s.received, none, (List.append_nil _).symm, within part, fun some => absurd rfl some⟩

/-- Nothing is received from a session that has ended once nothing waits for the consumer. -/
theorem drained_follow (ended : s.phase = .ended) (empty : s.queue = []) {cue : Cue}
    (h : s.follow? cue = some t) :
    t.phase = .ended ∧ t.queue = [] ∧ t.received = s.received := by
  have traffic := traffic_of_follow h
  generalize s.begins? cue = args at traffic
  cases traffic with
  | quiet quiet =>
      refine ⟨?_, ?_, quiet.received⟩
      · by_contra open_
        exact quiet.ended open_ ended
      · rcases quiet.queue with same | ⟨_, nothing⟩
        · rw [same, empty]
        · exact nothing
  | ask _ phase | deliver phase | report phase =>
      rw [ended] at phase
      cases phase
  | take taken =>
      rw [take?, empty] at taken
      cases taken

theorem drained_of_run (ended : s.phase = .ended) (empty : s.queue = []) {cues : List Cue}
    (run : s.run? cues = some t) : t.phase = .ended ∧ t.queue = [] ∧ t.received = s.received := by
  refine run?_preserves
    (P := fun u => u.phase = .ended ∧ u.queue = [] ∧ u.received = s.received) ?_ run
    ⟨ended, empty, rfl⟩
  rintro u v cue h ⟨ended, empty, received⟩
  obtain ⟨ended, empty, same⟩ := drained_follow ended empty h
  exact ⟨ended, empty, same.trans received⟩

/-! ## The way to the end -/

/-- One step of a session that has been stopped towards its end: the session goes on, or its
consumer takes an event. -/
inductive Settles (s : Session) (now : Nat) (t : Session) : Prop where
  | proceed (proceeds : s.follow? (.proceed now) = some t)
  | take (takes : s.follow? (.take now) = some t)

/-- How many steps there can be at most until a session that has been stopped has ended and its
consumer has received everything. -/
def remaining (s : Session) : Nat :=
  s.queue.length +
    match s.phase with
    | .pausing _ | .searching => 3
    | .delivering rest _ _ => 2 * rest.length + 4
    | .closing _ => 2
    | .ended => 0

theorem remaining_leave_le (s : Session) (now : Nat) :
    (s.leave now).remaining ≤ s.queue.length + 2 := by
  rcases s.leave_cases now with closing | ended
  · rw [closing]
    exact le_refl _
  · rw [ended]
    exact Nat.le_add_right _ _

theorem Leaves.lt_remaining (point : Leaves s.phase) : s.queue.length + 2 < s.remaining := by
  rw [remaining]
  generalize s.phase = phase at point
  cases point with
  | pausing | searching => exact Nat.lt_succ_self _
  | delivering => exact Nat.add_lt_add_left (Nat.lt_of_lt_of_le (by decide) (Nat.le_add_left 4 _)) _

/-- Each step of a session that has been stopped lessens what remains. -/
theorem remaining_lt_of_settles (stopped : s.signal.isStopped = true)
    (settles : Settles s now t) : t.remaining < s.remaining := by
  cases settles with
  | take takes =>
      obtain ⟨⟨event, u⟩, taken, rfl⟩ := Option.map_eq_some_iff.mp takes
      obtain ⟨queue, same⟩ := queue_of_take taken
      rw [same, remaining, remaining, queue]
      exact Nat.add_lt_add_right (Nat.lt_succ_self _) _
  | proceed proceeds =>
      obtain ⟨⟨u, args⟩, move, rfl⟩ := Option.map_eq_some_iff.mp proceeds
      cases move_of_proceed move with
      | expire running | ask running =>
          rw [stopped] at running
          cases running
      | leave _ point => exact lt_of_le_of_lt (remaining_leave_le s now) point.lt_remaining
      | conclude phase =>
          rw [remaining, remaining, phase]
          exact Nat.lt_succ_self _
      | deliver phase =>
          simp only [remaining, phase]
          simp [push, note, count]
          omega
      | abandon phase =>
          rw [fire_of_stopped stopped, remaining, remaining, phase]
          exact Nat.add_lt_add_left (Nat.succ_pos _) _
      | report phase =>
          rw [remaining, remaining, phase]
          simp [finish, push, note, count]
      | vanish phase =>
          rw [remaining, remaining, phase]
          exact Nat.add_lt_add_left (Nat.succ_pos _) _

/-- A session that has been stopped and its consumer always have a step, until the session has ended
and nothing waits for the consumer. -/
theorem exists_settles (room : 0 < s.plan.capacity) (stopped : s.signal.isStopped = true)
    (behind : s.phase ≠ .ended ∨ s.queue ≠ []) (now : Nat) : ∃ t, Settles s now t := by
  by_cases empty : s.queue = []
  · have vacant := hasRoom_of_empty room empty
    suffices proceeds : ∃ t, s.follow? (.proceed now) = some t by
      obtain ⟨t, proceeds⟩ := proceeds
      exact ⟨t, .proceed proceeds⟩
    cases phase : s.phase with
    | pausing wake | searching => exact ⟨s.leave now, by simp [follow?, proceed?, phase, stopped]⟩
    | delivering rest last next =>
        have delivering := isDelivering_iff.mpr ⟨rest, last, next, phase⟩
        exact exists_proceed_of_delivering vacant delivering now
    | closing status =>
        simp only [follow?, proceed?, phase, vacant, if_true]
        split
        · exact ⟨_, rfl⟩
        · exact ⟨_, rfl⟩
    | ended => exact absurd phase (behind.resolve_right fun waiting => waiting empty)
  · obtain ⟨event, queue, waiting⟩ := List.exists_cons_of_ne_nil empty
    exact ⟨_, .take (by rw [follow?, take?, waiting]; rfl)⟩

end Session

namespace Task

variable {t u : Task} {now : Nat}

/-! ## The way to the end among other threads -/

/-- One step of a task or its consumer: the task goes on, or the consumer takes an event. -/
inductive Settles (t : Task) (now : Nat) (u : Task) : Prop where
  | proceed (proceeds : t.follow? (.session (.proceed now)) = some u)
  | act (acts : t.follow? (.act now) = some u)
  | pickUp {response : Except TransportFault SearchResponse}
      (picks : t.follow? (.pickUp response) = some u)
  | wait (waits : t.follow? .wait = some u)
  | take (takes : t.follow? (.session (.take now)) = some u)

/-- How many steps there can be at most until a task has done what it looked at the signal for. -/
def pending (t : Task) : Nat :=
  match t.view with
  | .away => 0
  | .holding _ => 1
  | .clear =>
    match t.session.phase with
    | .pausing _ => 3
    | .searching => 2
    | .delivering _ _ _ | .closing _ | .ended => 1

/-- What remains for a task is first of all what it looked for, which may still be the pick-up of an
answer with changes to hand over, and then what remains of its session. -/
def remaining (t : Task) : Nat ×ₗ Nat := toLex (t.pending, t.session.remaining)

theorem remaining_lt_of_pending (fewer : u.pending < t.pending) : u.remaining < t.remaining :=
  Prod.Lex.toLex_lt_toLex.mpr (.inl fewer)

theorem remaining_lt_of_session {s : Session} (same : s.phase = t.session.phase ∨ t.view = .away)
    (fewer : s.remaining < t.session.remaining) :
    ({ t with session := s } : Task).remaining < t.remaining := by
  refine Prod.Lex.toLex_lt_toLex.mpr (.inr ⟨?_, fewer⟩)
  rcases same with phase | away
  · simp only [pending, phase]
  · simp only [pending, away]

/-- Each step of a task whose session has been stopped lessens what remains. -/
theorem remaining_lt_of_settles (stopped : t.session.signal.isStopped = true)
    (settles : Settles t now u) : u.remaining < t.remaining := by
  cases settles with
  | proceed proceeds =>
      cases step_of_follow proceeds with
      | session admits follows =>
          exact remaining_lt_of_session (.inr (View.isAway_iff.mp admits))
            (Session.remaining_lt_of_settles stopped (.proceed follows))
  | take takes =>
      cases step_of_follow takes with
      | session _ follows =>
          exact remaining_lt_of_session (.inl (Session.phase_of_outside rfl follows))
            (Session.remaining_lt_of_settles stopped (.take follows))
  | act acts =>
      refine remaining_lt_of_pending ?_
      cases step_of_follow acts with
      | ask clear phase => simp [pending, clear, phase, Session.ask, Session.note]
      | handOver clear phase => simp [pending, clear, phase]
      | settle holds => simp [pending, holds]
  | pickUp picks =>
      refine remaining_lt_of_pending ?_
      cases step_of_follow picks with
      | pickUp clear searching => simp [pending, clear, searching]
  | wait waits =>
      refine remaining_lt_of_pending ?_
      cases step_of_follow waits with
      | wait clear =>
          simp only [pending, clear]
          split <;> decide

/-- A task whose session has been stopped or its consumer always has a step, until the session has
ended and nothing waits for the consumer. -/
theorem exists_settles (sound : t.Sound) (room : 0 < t.session.plan.capacity)
    (stopped : t.session.signal.isStopped = true)
    (behind : t.session.phase ≠ .ended ∨ t.session.queue ≠ []) (now : Nat) :
    ∃ u, Settles t now u := by
  cases view : t.view with
  | away =>
      obtain ⟨s, settles⟩ := Session.exists_settles room stopped behind now
      cases settles with
      | proceed proceeds =>
          exact ⟨_, .proceed (follow?_session (View.isAway_iff.mpr view) proceeds)⟩
      | take takes => exact ⟨_, .take (follow?_session rfl takes)⟩
  | holding response => exact ⟨_, .act (by rw [follow?, act?, view])⟩
  | clear =>
      have point : Session.Leaves t.session.phase := by
        have fits := sound.fits
        rwa [view] at fits
      cases phase : t.session.phase with
      | pausing wake => exact ⟨_, .act (by rw [follow?, act?, view, phase])⟩
      | searching => exact ⟨_, .wait (by rw [follow?, wait?, view, phase])⟩
      | delivering rest last next =>
          cases rest with
          | nil =>
              rw [phase] at point
              cases point
          | cons b rest =>
              rcases exists_act_or_take view phase room now with ⟨u, acts⟩ | ⟨u, takes⟩
              · exact ⟨u, .act acts⟩
              · exact ⟨u, .take takes⟩
      | closing | ended =>
          rw [phase] at point
          cases point

/-! ## The fault of a run -/

/-- The fault that a run brings about: that of a search failure which was picked up, or else the end
of the lifetime. -/
def Brings (plan : WatchPlan) (cues : List Cue) (status : Status) : Prop :=
  (∃ fault ∈ failures cues, status = .internalError fault) ∨
    failures cues = [] ∧ (∃ time, .session (.expire time) ∈ cues) ∧
      status = .expired (.ofMillis plan.lifetime)

theorem Sound.away_of_ended (sound : t.Sound) (ended : t.session.phase = .ended) :
    t.view = .away := by
  by_contra looks
  exact sound.fits.ne_ended looks ended

/-- A session that has ended owes the fault that the run brought about. -/
theorem owed_iff_brings {present : Instant} {plan : WatchPlan} {cues : List Cue}
    (run : (start now present plan).run? cues = some t) (ended : t.session.phase = .ended)
    {status : Status} : t.session.owed? = some status ↔ Brings plan cues status := by
  have sound := sound_of_run run
  have faults : t.session.faults = failures cues := by
    have heard : t.faults = failures cues := faults_of_run run
    rwa [Task.faults, sound.away_of_ended ended, View.fault?, Option.toList_none,
      List.append_nil] at heard
  have expired : t.session.signal.reason = some .expired ↔
      ∃ time, .session (.expire time) ∈ cues := by
    rw [expired_of_run run]
    refine or_iff_right ?_
    intro before
    cases before
  have kept : t.session.plan = plan := plan_of_run run
  rw [sound.lawful.accounts.owed?_eq_some_iff, faults, expired, kept, Brings]

theorem brings_of_received {present : Instant} {plan : WatchPlan} {cues : List Cue}
    (run : (start now present plan).run? cues = some t) {status : Status}
    (member : .error status ∈ t.session.received) : Brings plan cues status := by
  have lawful := (sound_of_run run).lawful
  have reported : status ∈ t.session.reports :=
    Session.mem_reports_iff.mpr (lawful.passes.received_prefix_delivered.subset member)
  obtain ⟨ended, owed⟩ := lawful.owed_of_mem_reports reported
  exact (owed_iff_brings run ended).mp owed

theorem received_of_brings {present : Instant} {plan : WatchPlan} {cues : List Cue}
    (run : (start now present plan).run? cues = some t) (attached : t.session.attached = true)
    (ended : t.session.phase = .ended) (empty : t.session.queue = []) {status : Status}
    (brings : Brings plan cues status) : .error status ∈ t.session.received := by
  have lawful := (sound_of_run run).lawful
  have received : t.session.received = t.session.delivered := by
    rw [← lawful.passes.queued attached, empty, List.append_nil]
  have paid : t.session.reports = t.session.owed?.toList := by
    rcases lawful.accounts.owes_of ended with paid | ⟨detached, _⟩
    · exact paid
    · rw [attached] at detached
      cases detached
  rw [received, ← Session.mem_reports_iff, paid, Option.mem_toList]
  exact (owed_iff_brings run ended).mpr brings

/-- Nothing is received from a session that has ended once nothing waits for the consumer. -/
theorem drained_of_run (sound : t.Sound) (ended : t.session.phase = .ended)
    (empty : t.session.queue = []) {later : List Cue} (run : t.run? later = some u) :
    u.session.received = t.session.received ∧ ∀ time, u.session.take? time = none := by
  have told := sound.lawful.told
  rw [Session.Told, ended] at told
  obtain ⟨steps, _, alone, _⟩ := session_of_stopped told.1 (sound.away_of_ended ended) run
  obtain ⟨_, nothing, same⟩ := Session.drained_of_run ended empty alone
  exact ⟨same, fun time => by rw [Session.take?, nothing]⟩

/-- What a run brings about in which someone stopped the session first are failures, and none if the
task had not just looked at the signal. -/
theorem brings_of_stop {present : Instant} {plan : WatchPlan} {cues before after : List Cue}
    {time : Nat} (run : (start now present plan).run? cues = some t)
    (parts : cues = before ++ .session (.stop time) :: after)
    (first : (start now present plan).run? before = some u)
    (running : u.session.signal.isStopped = false) {status : Status}
    (brings : Brings plan cues status) :
    (∃ fault ∈ failures cues, status = .internalError fault) ∧ u.view ≠ .away := by
  subst parts
  have unknown : u.session.signal.reason = none := by
    simpa [StopSignal.isStopped] using running
  let v : Task := { u with session := u.session.stop time }
  have asked : v.session.signal.reason = some .requested := by
    change (u.session.fire time .requested).signal.reason = _
    rw [Session.reason_fire, unknown, Option.getD_none]
  have stopped : v.session.signal.isStopped = true := Session.isStopped_iff.mpr ⟨_, asked⟩
  have rest : v.run? after = some t := (run?_append first _).symm.trans run
  rcases brings with failed | ⟨_, expires, _⟩
  · refine ⟨failed, fun away => ?_⟩
    have early : failures before = [] := by
      have heard : u.faults = failures before := faults_of_run first
      rw [← heard, Task.faults, away, (sound_of_run first).lawful.unheard_of_running running]
      rfl
    have late : failures after = [] := failures_of_stopped stopped away rest
    obtain ⟨fault, member, _⟩ := failed
    rw [failures, List.filterMap_append, List.filterMap_cons_none rfl, ← failures, ← failures,
      early, late] at member
    cases member
  · have expired := (expired_of_run run).mpr (.inr expires)
    rw [signal_of_run stopped rest, asked] at expired
    cases expired

/-! ## The stream of a session -/

/-- **The grammar of the stream of a session.** Whatever the answers and the schedule are, with a
session on a thread of its own and everyone else on others, a consumer receives events about bugs
and after them at most one fault, and with the fault the session has ended and nothing more waits.
Once a session has ended and nothing waits, nothing is ever received again. The fault is that of a
search failure which was picked up, or the end of the lifetime if that stopped the session, which it
can only do first, and no failure was picked up; only the latter is resumable. A consumer that has
stayed until the end has received it. Nothing is picked up once the session has been stopped, unless
its task had just looked at the signal. So if someone stopped the session first, there is no fault
unless the stop fell between a look of the task and what it looked for, and then there is none but
that of a failure. Once the session has been stopped, further stops change nothing, and its task or
its consumer always has a step towards the end, each of which lessens what remains. -/
theorem stream_grammar {plan : WatchPlan} (room : 0 < plan.capacity) {now : Nat}
    {present : Instant} {t : Task} {cues : List Cue}
    (run : (start now present plan).run? cues = some t) :
    (∃ (changes : List WatchEvent) (fault : Option Status),
      t.session.received = changes ++ fault.toList.map .error ∧
      (∀ event ∈ changes, ∃ b, event = .added b ∨ event = .modified b) ∧
      (fault ≠ none → t.session.phase = .ended ∧ t.session.queue = [])) ∧
    (t.session.phase = .ended → t.session.queue = [] → ∀ later u, t.run? later = some u →
      u.session.received = t.session.received ∧ ∀ time, u.session.take? time = none) ∧
    (∀ status, .error status ∈ t.session.received → Brings plan cues status) ∧
    (t.session.attached = true → t.session.phase = .ended → t.session.queue = [] →
      ∀ status, Brings plan cues status → .error status ∈ t.session.received) ∧
    ((∀ fault, (Status.internalError fault).code = 500 ∧
        (Status.internalError fault).isResumable = false) ∧
      ∀ lifetime, (Status.expired lifetime).code = 410 ∧
        (Status.expired lifetime).isResumable = true) ∧
    (∀ before time after u, cues = before ++ .session (.stop time) :: after →
      (start now present plan).run? before = some u → u.session.signal.isStopped = false →
        ∀ status, .error status ∈ t.session.received →
          (∃ fault ∈ failures cues, status = .internalError fault) ∧ u.view ≠ .away) ∧
    (t.session.signal.isStopped = true →
      (t.view = .away → ∀ later u, t.run? later = some u → failures later = []) ∧
      (∀ later, t.run? later = t.run? (later.filter fun cue => !cue.isStop)) ∧
      (t.session.phase ≠ .ended ∨ t.session.queue ≠ [] → ∀ time, ∃ u, Settles t time u) ∧
      ∀ time u, Settles t time u → u.remaining < t.remaining) := by
  have sound := sound_of_run run
  have kept : t.session.plan = plan := plan_of_run run
  refine ⟨?_, ?_, fun _ => brings_of_received run, ?_, ⟨fun _ => ⟨rfl, rfl⟩, fun _ => ⟨rfl, rfl⟩⟩,
    ?_, ?_⟩
  · obtain ⟨changes, fault, received, about, ended⟩ := sound.lawful.received_eq
    refine ⟨changes, fault, received, ?_, ended⟩
    intro event member
    obtain ⟨b, rfl⟩ := about event member
    refine ⟨b, ?_⟩
    rw [WatchPlan.eventOf]
    split
    · exact .inl rfl
    · exact .inr rfl
  · intro ended empty later u after
    exact drained_of_run sound ended empty after
  · intro attached ended empty status brings
    exact received_of_brings run attached ended empty brings
  · intro before time after u parts first running status member
    exact brings_of_stop run parts first running (brings_of_received run member)
  · intro stopped
    refine ⟨fun away later u after => failures_of_stopped stopped away after,
      run?_without_stops stopped, exists_settles sound (kept ▸ room) stopped,
      fun _ _ => remaining_lt_of_settles stopped⟩

/-- The lifetime ends while a change waits for room, and someone stops the session after that: the
change of the next second is left out, and the last event tells of the lifetime. -/
theorem lifetime_ends_while_queue_is_full :
    ∃ t, (start 0 .epoch (.sample 6)).run?
        [.session (.proceed 7000), .look 7000,
          .pickUp (.ok ⟨[.sample 1 0 8, .sample 2 0 9]⟩), .act 7000, .look 7000, .act 7000,
          .session (.expire 60000), .session (.stop 60001), .session (.proceed 60001),
          .session (.take 60002), .session (.proceed 60002), .session (.take 60003)] = some t ∧
      t.session.phase = .ended ∧ t.session.attached = true ∧
      t.session.received =
        [.modified (.ofInfo (.sample 1 0 8)), .error (.expired (.ofMillis 60000))] ∧
      .error (.expired (.ofMillis 60000)) ∈ t.session.received ∧
      ∀ time, t.session.take? time = none := by
  have batch : (WatchPlan.sample 6).batch ⟨.onFirstDay 6⟩ ⟨[.sample 1 0 8, .sample 2 0 9]⟩ =
      [.ofInfo (.sample 1 0 8), .ofInfo (.sample 2 0 9)] :=
    WatchPlan.batch_of_pairwise (by decide)
  have latest : (SearchResponse.mk [.sample 1 0 8, .sample 2 0 9]).latestChange? =
      some ⟨.onFirstDay 9⟩ := rfl
  have run := (run?_accepted run?_firstSearch 7000 rfl rfl latest (by decide) batch
    [.look 7000, .act 7000, .session (.expire 60000), .session (.stop 60001),
      .session (.proceed 60001), .session (.take 60002), .session (.proceed 60002),
      .session (.take 60003)]).trans rfl
  obtain ⟨_, closed, _, faults, _⟩ := stream_grammar (by decide) run
  have lifetime := faults rfl rfl rfl (.expired (.ofMillis 60000))
    (.inr ⟨rfl, ⟨60000, by simp⟩, rfl⟩)
  exact ⟨_, run, rfl, rfl, rfl, lifetime, (closed rfl rfl [] _ rfl).2⟩

/-- Someone stops a session after its task has looked at the signal, and the search fails: the
failure is picked up and told, though a stop was first. And a consumer that accepts no further
events is not told that the lifetime has ended. -/
theorem failure_after_stop :
    (∃ t, (start 0 .epoch (.sample 6)).run?
        [.session (.proceed 7000), .look 7000, .session (.stop 7000),
          .pickUp (.error (.unavailable "")), .act 7000, .session (.proceed 7000),
          .session (.take 7000)] = some t ∧
      t.session.signal.reason = some .requested ∧ t.session.phase = .ended ∧
      t.session.queue = [] ∧
      t.session.received = [.error (.internalError (.unavailable ""))]) ∧
    ∃ t, (start 0 .epoch (.sample 6)).run?
        [.session .close, .session (.expire 60000), .session (.proceed 60000),
          .session (.proceed 60000)] = some t ∧
      t.session.signal.reason = some .expired ∧ t.session.phase = .ended ∧
      t.session.queue = [] ∧ t.session.received = [] := by
  have searching := run?_append run?_firstSearch
    [.look 7000, .session (.stop 7000), .pickUp (.error (.unavailable "")), .act 7000,
      .session (.proceed 7000), .session (.take 7000)]
  exact ⟨⟨_, searching.trans rfl, rfl, rfl, rfl, rfl⟩, _, rfl, rfl, rfl, rfl, rfl⟩

end Task

end BugFeed
