import BugFeed.Proofs.Watch.Cut
import BugFeed.Proofs.Watch.Stream

/-!
# The pace of a session

A session searches at intervals and not after its lifetime. Its pauses, the answers to its searches,
the consumer that makes room for its events, those who stop it and the end of its lifetime all have
times of their own, and several of them may come at one time.

In a run in time (`Timely`) time never goes back, the moves of the session are the ones that it has
at their times, and no time passes that has a move. In such a run every search keeps the pace
(`Ready`, `searches_keep_pace`): all earlier polls came to their end, the interval has passed since
the last thing that they did, nothing has stopped the session, and its lifetime is not over. What
carries this is that the wake of a pause comes an interval after all that was done (`Awake`).

A wait never takes longer than thirty years, an interval may. Then no second search begins: the
lifetime has no more than thirty years either, and it ends first (`Keeps.rested`).
-/

namespace BugFeed

set_option autoImplicit false

/-- Whether a search was answered, an event was handed over, or a poll ended. -/
def Note.isReturn : Note → Bool
  | .answered _ | .delivered _ | .polled _ => true
  | .asked _ | .fired _ | .taken _ | .ended => false

/-- Whether the session was stopped. -/
def Note.isFired : Note → Bool
  | .fired _ => true
  | .asked _ | .answered _ | .delivered _ | .polled _ | .taken _ | .ended => false

/-- A phase in which nothing is handed over but a fault. -/
def Phase.isLeaving : Phase → Bool
  | .searching | .closing _ | .ended => true
  | .pausing _ | .delivering _ _ _ => false

/-! ## Logs -/

/-- What has happened, newest first, before a search begins at a time: the polls all came to their
end, the interval has passed since then, nothing stopped the session, and its lifetime is not
over. -/
structure Ready (plan : WatchPlan) (openedAt time : Nat) (earlier : List (Nat × Note)) :
    Prop where
  concluded : ∀ p ∈ Poll.ofLog earlier, ∃ after, Concluded plan p after
  rested : ∀ entry ∈ earlier, entry.2.isReturn = true → entry.1 + plan.interval ≤ time
  unfired : ∀ entry ∈ earlier, entry.2.isFired = false
  alive : time ≤ openedAt + plan.lifetime

/-- Every search of a log was ready to begin. -/
def Paced (plan : WatchPlan) (openedAt : Nat) (log : List (Nat × Note)) : Prop :=
  ∀ later earlier time cutoff, log = later ++ (time, .asked cutoff) :: earlier →
    Ready plan openedAt time earlier

namespace Paced

variable {plan : WatchPlan} {openedAt now : Nat} {log : List (Nat × Note)}

theorem nil : Paced plan openedAt [] := by
  intro later earlier time cutoff split
  exact absurd split.symm (List.append_ne_nil_of_right_ne_nil _ (List.cons_ne_nil _ _))

theorem note {n : Note} (paced : Paced plan openedAt log) (unasked : n.asked? = none) :
    Paced plan openedAt ((now, n) :: log) := by
  intro later earlier time cutoff split
  cases later with
  | nil =>
      cases split
      cases unasked
  | cons entry later => exact paced later earlier time cutoff (List.cons.inj split).2

theorem ask {cutoff : ResourceVersion} (paced : Paced plan openedAt log)
    (ready : Ready plan openedAt now log) : Paced plan openedAt ((now, .asked cutoff) :: log) := by
  intro later earlier time other split
  cases later with
  | nil =>
      cases split
      exact ready
  | cons entry later => exact paced later earlier time other (List.cons.inj split).2

end Paced

/-- What is done after the first pause: the first pause is over, and the session has done nothing
before that. -/
structure Begun (firstWake clock : Nat) (log : List (Nat × Note)) : Prop where
  passed : firstWake ≤ clock
  since : ∀ entry ∈ log, entry.2.isReturn = true → firstWake ≤ entry.1

theorem Begun.note {firstWake clock : Nat} {log : List (Nat × Note)}
    (begun : Begun firstWake clock log) (n : Note) : Begun firstWake clock ((clock, n) :: log) where
  passed := begun.passed
  since := List.forall_mem_cons.mpr ⟨fun _ => begun.passed, begun.since⟩

/-- While a session works, everything that it did came after its first pause, and in a pause its
wake comes an interval after all that. -/
def Awake (firstWake interval clock : Nat) (log : List (Nat × Note)) : Phase → Prop
  | .pausing wake => firstWake ≤ wake ∧ ∀ entry ∈ log, entry.2.isReturn = true →
      firstWake ≤ entry.1 ∧ waitEnd entry.1 interval ≤ wake
  | .searching | .delivering _ _ _ => Begun firstWake clock log
  | .closing _ | .ended => True

namespace Awake

variable {firstWake interval clock : Nat} {log : List (Nat × Note)} {phase : Phase}

theorem mono {now : Nat} (awake : Awake firstWake interval clock log phase) (onward : clock ≤ now) :
    Awake firstWake interval now log phase := by
  cases phase with
  | pausing | closing | ended => exact awake
  | searching | delivering => exact ⟨awake.passed.trans onward, awake.since⟩

theorem note {n : Note} (awake : Awake firstWake interval clock log phase)
    (still : n.isReturn = false) : Awake firstWake interval clock ((clock, n) :: log) phase := by
  cases phase with
  | pausing wake =>
      refine ⟨awake.1, List.forall_mem_cons.mpr ⟨fun returned => ?_, awake.2⟩⟩
      rw [still] at returned
      cases returned
  | searching | delivering => exact Begun.note awake n
  | closing | ended => trivial

/-- A pause that begins now. -/
theorem pause (begun : Begun firstWake clock log) (past : ∀ entry ∈ log, entry.1 ≤ clock) :
    Awake firstWake interval clock log (.pausing (waitEnd clock interval)) :=
  ⟨begun.passed.trans (le_waitEnd clock interval), fun entry member returned =>
    ⟨begun.since entry member returned, Nat.add_le_add_right (past entry member) _⟩⟩

end Awake

/-- A log up to a time: all of it lies in the past, it tells of a stop exactly if the session was
stopped, and its searches keep the pace. -/
structure Journal (plan : WatchPlan) (openedAt clock : Nat) (stopped : Bool)
    (log : List (Nat × Note)) : Prop where
  past : ∀ entry ∈ log, entry.1 ≤ clock
  fired : stopped = log.any fun entry => entry.2.isFired
  paced : Paced plan openedAt log

namespace Journal

variable {plan : WatchPlan} {openedAt clock : Nat} {stopped : Bool} {log : List (Nat × Note)}

theorem mono {now : Nat} (journal : Journal plan openedAt clock stopped log)
    (onward : clock ≤ now) : Journal plan openedAt now stopped log where
  past entry member := (journal.past entry member).trans onward
  fired := journal.fired
  paced := journal.paced

theorem note {n : Note} (journal : Journal plan openedAt clock stopped log)
    (unasked : n.asked? = none) (unfired : n.isFired = false) :
    Journal plan openedAt clock stopped ((clock, n) :: log) where
  past := List.forall_mem_cons.mpr ⟨Nat.le_refl _, journal.past⟩
  fired := by rw [List.any_cons, unfired, Bool.false_or, journal.fired]
  paced := journal.paced.note unasked

theorem ask {cutoff : ResourceVersion} (journal : Journal plan openedAt clock stopped log)
    (ready : Ready plan openedAt clock log) :
    Journal plan openedAt clock stopped ((clock, .asked cutoff) :: log) where
  past := List.forall_mem_cons.mpr ⟨Nat.le_refl _, journal.past⟩
  fired := by rw [List.any_cons, journal.fired]; rfl
  paced := journal.paced.ask ready

theorem fire (journal : Journal plan openedAt clock stopped log) (reason : StopReason) :
    Journal plan openedAt clock true ((clock, .fired reason) :: log) where
  past := List.forall_mem_cons.mpr ⟨Nat.le_refl _, journal.past⟩
  fired := rfl
  paced := journal.paced.note rfl

end Journal

namespace Session

variable {s t : Session} {openedAt clock now : Nat}

/-! ## Time -/

/-- The time at which a cue comes. A consumer that closes does so at the time that it is. -/
def Cue.at (clock : Nat) : Cue → Nat
  | .expire now | .proceed now | .answer now _ | .take now | .stop now | .drop now => now
  | .close => clock

/-- Whether the session moves by itself at a cue. -/
def Cue.isMove : Cue → Bool
  | .expire _ | .proceed _ => true
  | .answer _ _ | .take _ | .stop _ | .close | .drop _ => false

/-- A run of a session from a time on in which time never goes back, no time passes that has a move
of the session, and the session moves as it must at each time. -/
def Timely (clock : Nat) (s : Session) : List Cue → Prop
  | [] => True
  | cue :: cues =>
    clock ≤ cue.at clock ∧
      (∀ time, clock ≤ time → time < cue.at clock → s.move? time = none) ∧
      (cue.isMove = true → s.follow? cue = (s.move? (cue.at clock)).map Prod.fst) ∧
      ∀ t, s.follow? cue = some t → t.Timely (cue.at clock) cues

/-- The time after a run. -/
def clockAfter (clock : Nat) (cues : List Cue) : Nat := cues.foldl Cue.at clock

theorem Timely.cons {cue : Cue} {cues : List Cue} (onward : clock ≤ cue.at clock)
    (idle : ∀ time, clock ≤ time → time < cue.at clock → s.move? time = none)
    (moves : cue.isMove = true → s.follow? cue = (s.move? (cue.at clock)).map Prod.fst)
    (first : s.follow? cue = some t) (rest : t.Timely (cue.at clock) cues) :
    s.Timely clock (cue :: cues) := by
  refine ⟨onward, idle, moves, fun u follows => ?_⟩
  obtain rfl : u = t := Option.some.inj (follows.symm.trans first)
  exact rest

theorem Timely.append {before after : List Cue} (timely : s.Timely clock (before ++ after))
    (run : s.run? before = some t) :
    s.Timely clock before ∧ t.Timely (clockAfter clock before) after := by
  induction before generalizing s clock with
  | nil =>
      cases run
      exact ⟨trivial, timely⟩
  | cons cue before ih =>
      obtain ⟨u, first, rest⟩ := Option.bind_eq_some_iff.mp run
      obtain ⟨onward, idle, moves, later⟩ := timely
      refine ⟨⟨onward, idle, moves, fun v follows => ?_⟩, (ih (later u first) rest).2⟩
      obtain rfl : v = u := Option.some.inj (follows.symm.trans first)
      exact (ih (later v first) rest).1

/-! ## Moves at their times -/

theorem expire?_eq_none_iff :
    s.expire? now = none ↔ s.signal.isStopped = true ∨ now < s.deadline := by
  simp only [expire?]
  split <;> simp_all

theorem move?_eq_none_iff :
    s.move? now = none ↔ s.expire? now = none ∧ s.proceed? now = none := by
  rw [move?]
  split <;> simp [and_comm]

/-- A session that waits for the answer to its search, or for the end of a pause, has no move. -/
theorem move?_eq_none_of_waiting (running : s.signal.isStopped = false) (alive : now < s.deadline)
    (waits : s.phase = .searching ∨ ∃ wake, s.phase = .pausing wake ∧ now < wake) :
    s.move? now = none := by
  refine move?_eq_none_iff.mpr ⟨expire?_eq_none_iff.mpr (.inr alive), ?_⟩
  rcases waits with phase | ⟨wake, phase, early⟩
  · simp [proceed?, phase, running]
  · simp [proceed?, phase, running, early]

/-- A run in time goes on with the work of a session before its lifetime ends. -/
theorem Timely.proceed {cues : List Cue} (onward : clock ≤ now)
    (idle : ∀ time, clock ≤ time → time < now → s.move? time = none) (alive : now < s.deadline)
    (first : s.follow? (.proceed now) = some t) (rest : t.Timely now cues) :
    s.Timely clock (.proceed now :: cues) := by
  refine .cons onward idle (fun _ => ?_) first rest
  have unexpired : s.expire? now = none := expire?_eq_none_iff.mpr (.inr alive)
  simp [follow?, move?, Cue.at, unexpired]

/-- A run in time goes on with the end of the lifetime of a session. -/
theorem Timely.expire {cues : List Cue} (onward : clock ≤ now)
    (idle : ∀ time, clock ≤ time → time < now → s.move? time = none) (later : s.wakesAtEnd = false)
    (first : s.follow? (.expire now) = some t) (rest : t.Timely now cues) :
    s.Timely clock (.expire now :: cues) := by
  refine .cons onward idle (fun _ => ?_) first rest
  have expires : s.expire? now = some t := first
  simp [follow?, move?, Cue.at, later, expires]

/-- What a session does by itself at a time: its lifetime ends, or it goes on with its work, at the
end of its lifetime only if its first pause ends then. -/
theorem own_cases (moves : (s.move? now).map Prod.fst = some t) :
    s.signal.isStopped = false ∧ t = s.fire now .expired ∨
      ∃ args, s.proceed? now = some (t, args) ∧
        (s.wakesAtEnd = true ∨ s.signal.isStopped = true ∨ now < s.deadline) := by
  obtain ⟨⟨u, args⟩, picked, rfl⟩ := Option.map_eq_some_iff.mp moves
  have expires : ((s.expire? now).map fun s => (s, none)) = some (u, args) →
      s.signal.isStopped = false ∧ u = s.fire now .expired := by
    intro expires
    obtain ⟨v, expired, same⟩ := Option.map_eq_some_iff.mp expires
    cases same
    simp only [expire?] at expired
    split at expired
    · cases expired
    · rename_i early
      cases expired
      exact ⟨by simpa using (not_or.mp early).1, rfl⟩
  rw [move?] at picked
  split at picked
  · rename_i wakes
    rcases Option.or_eq_some_iff.mp picked with proceeds | ⟨_, expired⟩
    · exact .inr ⟨args, proceeds, .inl wakes⟩
    · exact .inl (expires expired)
  · rcases Option.or_eq_some_iff.mp picked with expired | ⟨still, proceeds⟩
    · exact .inl (expires expired)
    · exact .inr ⟨args, proceeds, .inr (expire?_eq_none_iff.mp (Option.map_eq_none_iff.mp still))⟩

/-- A search begins when its pause is over. -/
theorem wake_le_of_proceed {wake : Nat} {args : Option SearchArgs}
    (proceeds : s.proceed? now = some (t, args)) (phase : s.phase = .pausing wake)
    (running : s.signal.isStopped = false) : wake ≤ now := by
  by_contra early
  simp [proceed?, phase, running, early] at proceeds

/-! ## The pace -/

/-- A session that keeps the pace up to a time, and whose lifetime ends when it is over. -/
structure Keeps (openedAt clock : Nat) (s : Session) : Prop where
  journal : Journal s.plan s.openedAt clock s.signal.isStopped s.log
  awake : Awake s.firstWake s.plan.interval clock s.log s.phase
  inTime : s.signal.isStopped = false → clock ≤ s.deadline
  opened : s.openedAt = openedAt ∧ s.openedAt ≤ s.firstWake

theorem keeps_start (now : Nat) (present : Instant) (plan : WatchPlan) :
    (start now present plan).Keeps now now where
  journal := ⟨fun _ member => absurd member List.not_mem_nil, rfl, .nil⟩
  awake := ⟨Nat.le_refl _, fun _ member => absurd member List.not_mem_nil⟩
  inTime _ := le_waitEnd now plan.lifetime
  opened := ⟨rfl, le_waitEnd now (plan.firstDelay present)⟩

namespace Keeps

/-- Time passes while the session has no move. -/
theorem wait (keeps : s.Keeps openedAt clock) (onward : clock ≤ now)
    (idle : ∀ time, clock ≤ time → time < now → s.move? time = none) : s.Keeps openedAt now where
  journal := keeps.journal.mono onward
  awake := keeps.awake.mono onward
  inTime running := by
    by_contra late
    have still := idle s.deadline (keeps.inTime running) (Nat.lt_of_not_le late)
    rcases expire?_eq_none_iff.mp (move?_eq_none_iff.mp still).1 with stopped | early
    · rw [running] at stopped
      cases stopped
    · exact Nat.lt_irrefl _ early
  opened := keeps.opened

/-- The interval has passed since all that was done when a search begins, also if it is longer than
any wait. -/
theorem rested {wake : Nat} (keeps : s.Keeps openedAt now) (phase : s.phase = .pausing wake)
    (running : s.signal.isStopped = false) (due : wake ≤ now)
    (first : s.wakesAtEnd = true ∨ s.signal.isStopped = true ∨ now < s.deadline)
    {entry : Nat × Note} (member : entry ∈ s.log) (returned : entry.2.isReturn = true) :
    entry.1 + s.plan.interval ≤ now := by
  have awake := keeps.awake
  rw [phase] at awake
  obtain ⟨since, woken⟩ := awake.2 entry member returned
  have opened := keeps.opened.2
  have inTime := keeps.inTime running
  rw [waitEnd] at woken
  by_cases short : s.plan.interval ≤ longestWait
  · omega
  · -- Then the pause ends with the lifetime at the earliest, which goes before it unless the first
    -- pause ends then, but that one has ended before.
    have long : 0 < longestWait := by decide
    have whole : s.deadline ≤ s.openedAt + longestWait :=
      Nat.add_le_add_left (Nat.min_le_right _ _) _
    rcases first with wakes | stopped | early
    · have atEnd : s.firstWake = s.deadline := by simpa [wakesAtEnd] using wakes
      omega
    · rw [running] at stopped
      cases stopped
    · omega

theorem ready {wake : Nat} (keeps : s.Keeps openedAt now) (told : s.Told)
    (phase : s.phase = .pausing wake) (running : s.signal.isStopped = false) (due : wake ≤ now)
    (first : s.wakesAtEnd = true ∨ s.signal.isStopped = true ∨ now < s.deadline) :
    Ready s.plan s.openedAt now s.log where
  concluded p member := by
    rw [Told, phase] at told
    exact Polled.concluded told member
  rested _ := keeps.rested phase running due first
  unfired := by
    have fired := keeps.journal.fired
    rw [running, eq_comm, List.any_eq_false] at fired
    exact fun entry member => eq_false_of_ne_true (fired entry member)
  alive := (keeps.inTime running).trans (Nat.add_le_add_left (Nat.min_le_left _ _) _)

theorem fire (keeps : s.Keeps openedAt now) (reason : StopReason) :
    (s.fire now reason).Keeps openedAt now := by
  rcases s.fire_cases now reason with ⟨_, same⟩ | ⟨_, fired⟩
  · rw [same]
    exact keeps
  · rw [fired]
    exact ⟨keeps.journal.fire reason, keeps.awake.note rfl, nofun, keeps.opened⟩

theorem finish (keeps : s.Keeps openedAt now) : (s.finish now).Keeps openedAt now :=
  ⟨keeps.journal.note rfl rfl, trivial, keeps.inTime, keeps.opened⟩

theorem leave (keeps : s.Keeps openedAt now) : (s.leave now).Keeps openedAt now := by
  rcases s.leave_cases now with closing | ended
  · rw [closing]
    exact ⟨keeps.journal, trivial, keeps.inTime, keeps.opened⟩
  · rw [ended]
    exact keeps.finish

theorem begun (keeps : s.Keeps openedAt now)
    (working : s.isSearching = true ∨ s.isDelivering = true) : Begun s.firstWake now s.log := by
  have awake := keeps.awake
  rcases working with searching | delivering
  · rwa [of_decide_eq_true searching] at awake
  · obtain ⟨rest, last, next, phase⟩ := isDelivering_iff.mp delivering
    rwa [phase] at awake

theorem conclude {last : Option Instant} {next : ResourceVersion} (keeps : s.Keeps openedAt now)
    (phase : s.phase = .delivering [] last next) :
    (({ s with watermark := next }.conclude now .ok).pause now).Keeps openedAt now := by
  have journal : Journal s.plan s.openedAt now s.signal.isStopped ((now, .polled .ok) :: s.log) :=
    keeps.journal.note rfl rfl
  have begun := (keeps.begun (.inr (isDelivering_iff.mpr ⟨_, _, _, phase⟩))).note (.polled .ok)
  exact ⟨journal, .pause begun journal.past, keeps.inTime, keeps.opened⟩

theorem proceed {args : Option SearchArgs} (keeps : s.Keeps openedAt now) (told : s.Told)
    (proceeds : s.proceed? now = some (t, args))
    (first : s.wakesAtEnd = true ∨ s.signal.isStopped = true ∨ now < s.deadline) :
    t.Keeps openedAt now := by
  cases move_of_proceed proceeds with
  | expire => exact keeps.fire .expired
  | leave => exact keeps.leave
  | @ask wake running phase =>
      have due := wake_le_of_proceed proceeds phase running
      have awake := keeps.awake
      rw [phase] at awake
      refine ⟨keeps.journal.ask (keeps.ready told phase running due first), ?_, keeps.inTime,
        keeps.opened⟩
      exact Begun.note ⟨awake.1.trans due, fun e member returned => (awake.2 e member returned).1⟩ _
  | conclude phase => exact keeps.conclude phase
  | deliver phase =>
      have begun := keeps.begun (.inr (isDelivering_iff.mpr ⟨_, _, _, phase⟩))
      exact ⟨keeps.journal.note rfl rfl, begun.note _, keeps.inTime, keeps.opened⟩
  | abandon => exact (keeps.fire .finished).finish
  | report =>
      exact ⟨(keeps.journal.note rfl rfl).note rfl rfl, trivial, keeps.inTime, keeps.opened⟩
  | vanish => exact keeps.finish

/-- An answer that leads to the next pause. -/
theorem paused {response : Except TransportFault SearchResponse} {outcome : PollOutcome}
    (keeps : s.Keeps openedAt now) (phase : s.phase = .searching) :
    (((s.note now (.answered response)).conclude now outcome).pause now).Keeps openedAt now := by
  have journal : Journal s.plan s.openedAt now s.signal.isStopped
      ((now, .polled outcome) :: (now, .answered response) :: s.log) :=
    (keeps.journal.note rfl rfl).note rfl rfl
  have begun := (keeps.begun (.inl (decide_eq_true phase))).note (.answered response)
  exact ⟨journal, .pause (begun.note _) journal.past, keeps.inTime, keeps.opened⟩

theorem hears {response : Except TransportFault SearchResponse} (keeps : s.Keeps openedAt now)
    (hears : Hears s now response t) : t.Keeps openedAt now := by
  cases hears with
  | unasked => exact keeps
  | late => exact keeps.leave
  | picked phase running picks =>
      cases picks with
      | @failed fault =>
          rcases ((s.note now (.answered (.error fault))).conclude now .error).fire_cases now
            .failed with ⟨stopped, _⟩ | ⟨_, fired⟩
          · cases running.symm.trans stopped
          · rw [fired]
            exact ⟨((keeps.journal.note rfl rfl).note rfl rfl).fire .failed, trivial, nofun,
              keeps.opened⟩
      | empty | skipped => exact keeps.paused phase
      | accepted =>
          have begun := keeps.begun (.inl (decide_eq_true phase))
          exact ⟨keeps.journal.note rfl rfl, begun.note _, keeps.inTime, keeps.opened⟩

/-- **What a session does at a time keeps the pace.** -/
theorem follow {cue : Cue} (keeps : s.Keeps openedAt (cue.at clock)) (told : s.Told)
    (moves : cue.isMove = true → s.follow? cue = (s.move? (cue.at clock)).map Prod.fst)
    (h : s.follow? cue = some t) : t.Keeps openedAt (cue.at clock) := by
  cases cue with
  | expire time | proceed time =>
      rcases own_cases ((moves rfl).symm.trans h) with ⟨_, rfl⟩ | ⟨args, proceeds, first⟩
      · exact keeps.fire .expired
      · exact keeps.proceed told proceeds first
  | answer time response =>
      cases h
      exact keeps.hears (hears_answer s time response)
  | take time =>
      obtain ⟨⟨event, u⟩, taken, rfl⟩ := Option.map_eq_some_iff.mp h
      rw [(queue_of_take taken).2]
      exact ⟨keeps.journal.note rfl rfl, keeps.awake.note rfl, keeps.inTime, keeps.opened⟩
  | stop time =>
      cases h
      exact keeps.fire .requested
  | close =>
      cases h
      exact ⟨keeps.journal, keeps.awake, keeps.inTime, keeps.opened⟩
  | drop time =>
      cases h
      have left : ({ s.close with queue := [] } : Session).Keeps openedAt time :=
        ⟨keeps.journal, keeps.awake, keeps.inTime, keeps.opened⟩
      exact left.fire .requested

theorem run {cues : List Cue} (keeps : s.Keeps openedAt clock) (told : s.Told)
    (timely : s.Timely clock cues) (run : s.run? cues = some t) :
    t.Keeps openedAt (clockAfter clock cues) := by
  induction cues generalizing s clock with
  | nil =>
      cases run
      exact keeps
  | cons cue cues ih =>
      obtain ⟨u, first, rest⟩ := Option.bind_eq_some_iff.mp run
      obtain ⟨onward, idle, moves, later⟩ := timely
      exact ih ((keeps.wait onward idle).follow told moves first) (told.follow first)
        (later u first) rest

end Keeps

/-! ## After a stop -/

/-- A session that has been stopped does not look at the answer to its search, but leaves its work
as it does without one. -/
theorem abandons (phase : s.phase = .searching) (stopped : s.signal.isStopped = true) (time : Nat)
    (response : Except TransportFault SearchResponse) :
    s.answer time response = s.leave time ∧ s.follow? (.proceed time) = some (s.leave time) := by
  simp [answer, follow?, proceed?, phase, stopped]

/-- What leaves its work keeps its watermark. -/
theorem leaving_leave (s : Session) (now : Nat) :
    (s.leave now).phase.isLeaving = true ∧ (s.leave now).watermark = s.watermark := by
  rcases s.leave_cases now with closing | ended
  · rw [closing]
    exact ⟨rfl, rfl⟩
  · rw [ended]
    exact ⟨rfl, rfl⟩

theorem leaving_follow (leaving : s.phase.isLeaving = true)
    (stopped : s.signal.isStopped = true) {cue : Cue} (h : s.follow? cue = some t) :
    t.phase.isLeaving = true ∧ t.watermark = s.watermark := by
  cases windsDown_of_follow stopped h with
  | @proceed now _ _ proceeds =>
      cases move_of_proceed proceeds with
      | expire running | ask running => cases running.symm.trans stopped
      | leave => exact leaving_leave s now
      | conclude phase | deliver phase | abandon phase =>
          rw [phase] at leaving
          cases leaving
      | report | vanish => exact ⟨rfl, rfl⟩
  | @late now => exact leaving_leave s now
  | take taken =>
      rw [(queue_of_take taken).2]
      exact ⟨leaving, rfl⟩
  | unasked | stop | close | drop => exact ⟨leaving, rfl⟩

/-- A session that was stopped during its search keeps its watermark. -/
theorem watermark_of_abandoned (phase : s.phase = .searching)
    (stopped : s.signal.isStopped = true) {later : List Cue} (run : s.run? later = some t) :
    t.watermark = s.watermark := by
  have leaving : s.phase.isLeaving = true := by rw [phase]; rfl
  refine (run?_preserves (P := fun t => t.signal.isStopped = true ∧
    t.phase.isLeaving = true ∧ t.watermark = s.watermark) ?_ run
    ⟨stopped, leaving, rfl⟩).2.2
  rintro u v cue follows ⟨still, left, same⟩
  obtain ⟨left, kept⟩ := leaving_follow left still follows
  exact ⟨by rw [signal_follow still follows, still], left, kept.trans same⟩

/-- All that a session that was stopped during its search still hands over is the end of its
lifetime, if that stopped it. -/
theorem Lawful.delivered_of_abandoned (lawful : s.Lawful) (phase : s.phase = .searching)
    (stopped : s.signal.isStopped = true) {later : List Cue} (run : s.run? later = some t)
    {event : WatchEvent} (member : event ∈ t.delivered) :
    event ∈ s.delivered ∨ s.signal.reason = some .expired ∧
      event = .error (.expired (.ofMillis s.plan.lifetime)) := by
  have open_ : s.phase ≠ .ended := by rw [phase]; nofun
  have after : t.Lawful := run?_preserves (fun h lawful => lawful.follow h) run lawful
  have signal := signal_of_run stopped run
  obtain ⟨_, more, handed, within⟩ := only_begun_second lawful.told stopped run
  have nothing : s.begun = none := by
    have told := lawful.told
    rw [Told, phase] at told
    obtain ⟨earlier, polls, _⟩ := told
    rw [begun, polls]
    rfl
  obtain rfl : more = [] := by
    refine List.eq_nil_iff_forall_not_mem.mpr fun b inside => ?_
    cases nothing.symm.trans (within b inside)
  obtain ⟨fault, delivered, _⟩ := after.passes.told
  rw [delivered, handed, ← lawful.passes.delivered_eq open_] at member
  rcases List.mem_append.mp member with before | last
  · exact .inl (by simpa using before)
  · right
    obtain ⟨status, told, rfl⟩ := List.mem_map.mp last
    have reported : status ∈ t.reports := by
      rw [mem_reports_iff, delivered]
      exact List.mem_append_right _ (List.mem_map_of_mem told)
    have unheard : t.faults = [] := by
      rw [faults_of_run run, lawful.accounts.unheard (phase ▸ .searching),
        failures_of_stopped stopped run, List.append_nil]
    rcases after.accounts.owed?_eq_some_iff.mp (after.owed_of_mem_reports reported).2 with
      ⟨fault, heard, _⟩ | ⟨_, expired, same⟩
    · rw [unheard] at heard
      cases heard
    · exact ⟨signal ▸ expired, by rw [same, plan_of_run run]⟩

/-- What remains of a session that has been stopped gets less with each of its moves and never
more. -/
theorem remaining_follow (stopped : s.signal.isStopped = true) {cue : Cue}
    (h : s.follow? cue = some t) : t.remaining + cue.isMove.toNat ≤ s.remaining := by
  cases windsDown_of_follow stopped h with
  | proceed => exact remaining_lt_of_settles stopped (.proceed h)
  | @late now _ phase =>
      have point : Leaves s.phase := phase ▸ .searching
      exact (s.remaining_leave_le now).trans (Nat.le_of_lt point.lt_remaining)
  | take => exact Nat.le_of_lt (remaining_lt_of_settles stopped (.take h))
  | unasked | stop | close => exact Nat.le_refl _
  | drop =>
      rw [remaining, remaining]
      exact Nat.add_le_add_right (Nat.zero_le _) _

theorem remaining_of_run (stopped : s.signal.isStopped = true) {cues : List Cue}
    (run : s.run? cues = some t) : t.remaining + cues.countP Cue.isMove ≤ s.remaining := by
  induction cues generalizing s with
  | nil =>
      cases run
      exact Nat.le_refl _
  | cons cue cues ih =>
      obtain ⟨u, first, rest⟩ := Option.bind_eq_some_iff.mp run
      have here := remaining_follow stopped first
      have later := ih (by rw [signal_follow stopped first, stopped]) rest
      rw [List.countP_cons]
      cases moves : cue.isMove <;> simp [moves] at here ⊢ <;> omega

/-- A session that has ended, or that only waits for room: for the rest of a second that it has
begun, or for the fault that ends it. -/
inductive IsOver (s : Session) : Prop where
  | ended (phase : s.phase = .ended)
  | second {b : Bug} {rest : List Bug} {next : ResourceVersion}
      (phase : s.phase = .delivering (b :: rest) (some b.lastChange.truncate) next)
      (full : s.hasRoom = false)
  | fault {status : Status} (phase : s.phase = .closing status) (full : s.hasRoom = false)

/-- A session that has been stopped and has nothing to do is over. -/
theorem isOver_of_idle (stopped : s.signal.isStopped = true) (idle : s.proceed? now = none) :
    s.IsOver := by
  cases phase : s.phase with
  | pausing wake | searching => simp [proceed?, phase, stopped] at idle
  | ended => exact .ended phase
  | closing status =>
      refine .fault phase (eq_false_of_ne_true fun room => ?_)
      simp only [proceed?, phase, room, if_true] at idle
      split at idle <;> cases idle
  | delivering rest last next =>
      cases rest with
      | nil => simp [proceed?, phase] at idle
      | cons b rest =>
          simp only [proceed?, phase, Option.map_eq_none_iff, deliver?] at idle
          split at idle
          · cases idle
          · rename_i uncut
            obtain rfl : last = some b.lastChange.truncate := by
              by_contra other
              exact uncut ⟨other, stopped⟩
            refine .second phase (eq_false_of_ne_true fun room => ?_)
            obtain ⟨t, handed⟩ := exists_handOver room now b rest next
            cases idle.symm.trans handed

/-- Once the lifetime of a session is over, a session that has nothing to do is over. -/
theorem Keeps.isOver (keeps : s.Keeps openedAt clock) {time : Nat}
    (spent : waitEnd openedAt s.plan.lifetime ≤ time) (idle : s.move? time = none) :
    s.IsOver := by
  obtain ⟨unexpired, still⟩ := move?_eq_none_iff.mp idle
  refine isOver_of_idle ((expire?_eq_none_iff.mp unexpired).resolve_right fun early => ?_) still
  rw [deadline, keeps.opened.1] at early
  exact Nat.not_lt.mpr spent early

/-! ## Pacing -/

/-- **Searches keep the pace of a session and end with its lifetime.** In every run in time, however
long its searches take, whatever its consumer does and whenever it is stopped:

* when a search begins, all earlier ones have been answered and their batches handed over, the
  interval has passed since the last of this, nothing has stopped the session, and no more than its
  lifetime has passed since it was opened;
* a search that is under way when the session is stopped is abandoned: its answer changes nothing
  about how the session leaves its work, even if it is a fault, the watermark stays, and all that is
  still handed over is the end of the lifetime, if that stopped the session;
* at any time after its lifetime that passes without anything happening to it, the session has
  ended or only waits for room, for the rest of a second or for its fault. It cannot be busy for
  ever then: it has been stopped once the time is past its lifetime, and a session that has been
  stopped has only so many moves, whatever happens to it. -/
theorem searches_keep_pace {plan : WatchPlan} {now : Nat} {present : Instant} {s : Session}
    {cues : List Cue} (run : (start now present plan).run? cues = some s)
    (timely : (start now present plan).Timely now cues) :
    (∀ later earlier time cutoff, s.log = later ++ (time, .asked cutoff) :: earlier →
      Ready plan now time earlier) ∧
    (s.signal.isStopped = s.log.any fun entry => entry.2.isFired) ∧
    (s.isSearching = true → s.signal.isStopped = true →
      (∀ time response, s.answer time response = s.leave time ∧
        s.follow? (.proceed time) = some (s.leave time)) ∧
      ∀ later t, s.run? later = some t → t.watermark = s.watermark ∧
        ∀ event ∈ t.delivered, event ∈ s.delivered ∨ s.signal.reason = some .expired ∧
          event = .error (.expired (.ofMillis plan.lifetime))) ∧
    (∀ before cue after u time, cues = before ++ cue :: after →
      (start now present plan).run? before = some u → clockAfter now before ≤ time →
      time < cue.at (clockAfter now before) → waitEnd now plan.lifetime ≤ time → u.IsOver) ∧
    (∀ time, waitEnd now plan.lifetime ≤ time → s.move? time = none → s.IsOver) ∧
    (waitEnd now plan.lifetime < clockAfter now cues → s.signal.isStopped = true) ∧
    (s.signal.isStopped = true → ∀ later t, s.run? later = some t →
      t.remaining + later.countP Cue.isMove ≤ s.remaining) := by
  have kept : s.plan = plan := plan_of_run run
  have keeps := (keeps_start now present plan).run (told_start now present plan) timely run
  refine ⟨?_, keeps.journal.fired, ?_, ?_, ?_, ?_, fun stopped _ _ => remaining_of_run stopped⟩
  · have paced := keeps.journal.paced
    rwa [kept, keeps.opened.1] at paced
  · intro searching stopped
    have phase : s.phase = .searching := of_decide_eq_true searching
    refine ⟨abandons phase stopped, fun later t rest => ⟨watermark_of_abandoned phase stopped rest,
      fun event member => ?_⟩⟩
    rw [← kept]
    exact (lawful_of_run run).delivered_of_abandoned phase stopped rest member
  · rintro before cue after u time rfl first since until_ spent
    obtain ⟨earlier, _, idle, _⟩ := timely.append first
    have held := (keeps_start now present plan).run (told_start now present plan) earlier first
    refine held.isOver ?_ (idle time since until_)
    rwa [show u.plan = plan from plan_of_run first]
  · intro time spent idle
    exact keeps.isOver (by rwa [kept]) idle
  · intro late
    by_contra running
    have inTime := keeps.inTime (eq_false_of_ne_true running)
    rw [deadline, keeps.opened.1, kept] at inTime
    exact Nat.not_lt.mpr inTime late

/-- The second search of two, an interval apart, is still under way when the lifetime ends, and
fails then: the consumer is told of the lifetime only. -/
theorem late_failure_is_abandoned :
    ∃ s t, (start 0 .epoch (.sample 6)).run?
        [.proceed 7000, .answer 7250 (.ok ⟨[]⟩), .proceed 8250, .expire 60000] = some s ∧
      Ready (.sample 6) 0 8250
        [(7250, .polled .empty), (7250, .answered (.ok ⟨[]⟩)), (7000, .asked ⟨.onFirstDay 6⟩)] ∧
      s.run? [.answer 60000 (.error (.unavailable "")), .proceed 60000] = some t ∧
      t.delivered = [.error (.expired (.ofMillis 60000))] ∧ t.watermark = s.watermark := by
  obtain ⟨s, run, timely, log, phase, stopped, late⟩ : ∃ s,
      (start 0 .epoch (.sample 6)).run? [.proceed 7000, .answer 7250 (.ok ⟨[]⟩), .proceed 8250,
        .expire 60000] = some s ∧
      (start 0 .epoch (.sample 6)).Timely 0 [.proceed 7000, .answer 7250 (.ok ⟨[]⟩),
        .proceed 8250, .expire 60000] ∧
      s.log = [(60000, .fired .expired), (8250, .asked ⟨.onFirstDay 6⟩), (7250, .polled .empty),
        (7250, .answered (.ok ⟨[]⟩)), (7000, .asked ⟨.onFirstDay 6⟩)] ∧
      s.phase = .searching ∧ s.signal.isStopped = true ∧
      ∃ t, s.run? [.answer 60000 (.error (.unavailable "")), .proceed 60000] = some t ∧
        t.delivered = [.error (.expired (.ofMillis 60000))] := by
    refine ⟨_, (run?_cons firstSearch_reached _).trans ((run?_cons rfl _).trans
      ((run?_cons (follow?_ask rfl rfl (Nat.le_refl _)) _).trans (run?_cons rfl []))), ?_, rfl, rfl,
      rfl, _, rfl, rfl⟩
    refine .proceed (by decide) ?_ (by decide) firstSearch_reached ?_
    · exact fun time _ early => move?_eq_none_of_waiting rfl
        (Nat.lt_trans early (by decide)) (.inr ⟨_, rfl, early⟩)
    refine .cons (by decide) ?_ nofun rfl ?_
    · exact fun time _ early => move?_eq_none_of_waiting rfl
        (Nat.lt_trans early (by decide)) (.inl rfl)
    refine .proceed (by decide) ?_ (by decide) (follow?_ask rfl rfl (Nat.le_refl _)) ?_
    · exact fun time _ early => move?_eq_none_of_waiting rfl
        (Nat.lt_trans early (by decide)) (.inr ⟨_, rfl, early⟩)
    refine .expire (by decide) ?_ (by decide) rfl trivial
    · exact fun time _ early => move?_eq_none_of_waiting rfl early (.inl rfl)
  obtain ⟨t, rest, delivered⟩ := late
  obtain ⟨paced, _, abandons, _⟩ := searches_keep_pace run timely
  obtain ⟨watermark, _⟩ := (abandons (decide_eq_true phase) stopped).2 _ t rest
  exact ⟨s, t, run, paced [_] _ _ _ log, rest, delivered, watermark⟩

end Session

end BugFeed
