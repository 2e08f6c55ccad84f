import BugFeed.Proofs.Watch.Order

/-!
# How a session ends

Three things race for the end of a session: someone stops it, its lifetime ends, or a search fails.
Each may come while the session waits, searches, hands changes over or finds its queue full. The
signal keeps which of them was first (`signal_of_run`), and the lifetime can only be first
(`expired_of_run`).

What a session owes its consumer (`owed?`) is the fault that it heard of, or else the end of its
lifetime if that stopped it. The account of a session (`Accounts`) is kept by all that it does:
while it closes, it is about to hand over what it owes, and once it has ended it has done so, unless
its consumer was gone. With what its polls tell and what passes through its queue this is all that a
session is bound to (`Lawful`), and it keeps to it in every run (`lawful_of_run`). Searches, answers
and changes keep it whether the signal has fired or not (`Lawful.ask`, `Lawful.picks`,
`Lawful.handOver`), so it holds as well where the signal fires between a look at it and the act that
follows.
-/

namespace BugFeed

set_option autoImplicit false

/-- The fault in an answer. -/
def Note.fault? : Note → Option TransportFault
  | .answered (.error fault) => some fault
  | _ => none

/-- The fault that an event tells of. -/
def WatchEvent.status? : WatchEvent → Option Status
  | .error status => some status
  | _ => none

theorem WatchPlan.status?_eventOf (plan : WatchPlan) (b : Bug) :
    (plan.eventOf b).status? = none := by
  rw [eventOf]
  split <;> rfl

namespace Session

variable {s t : Session} {now : Nat}

/-! ## Faults that were heard -/

/-- The faults that the session was answered, first one first. -/
def faults (s : Session) : List TransportFault :=
  s.log.reverse.filterMap fun entry => entry.2.fault?

@[simp] theorem faults_note (s : Session) (now : Nat) (n : Note) :
    (s.note now n).faults = s.faults ++ n.fault?.toList := by
  simp only [faults, note, List.reverse_cons, List.filterMap_append]
  rcases n with _ | (_ | _) | _ | _ | _ | _ | _ <;> rfl

@[simp] theorem faults_conclude (s : Session) (now : Nat) (outcome : PollOutcome) :
    (s.conclude now outcome).faults = s.faults :=
  (faults_note _ now (.polled outcome)).trans (List.append_nil _)

@[simp] theorem faults_push (s : Session) (now : Nat) (event : WatchEvent) :
    (s.push now event).faults = s.faults :=
  (faults_note _ now (.delivered event)).trans (List.append_nil _)

@[simp] theorem faults_finish (s : Session) (now : Nat) : (s.finish now).faults = s.faults :=
  (faults_note _ now .ended).trans (List.append_nil _)

@[simp] theorem faults_fire (s : Session) (now : Nat) (reason : StopReason) :
    (s.fire now reason).faults = s.faults := by
  rcases s.fire_cases now reason with ⟨_, same⟩ | ⟨_, fired⟩
  · rw [same]
  · rw [fired, faults_note]
    exact List.append_nil _

@[simp] theorem faults_leave (s : Session) (now : Nat) : (s.leave now).faults = s.faults := by
  rcases s.leave_cases now with closing | ended
  · rw [closing]
    rfl
  · rw [ended, faults_finish]

/-- The fault that a session hears of at a cue: that of a search which failed while nothing had
stopped the session. -/
def fails? (s : Session) : Cue → Option TransportFault
  | .answer _ (.error fault) =>
    if s.isSearching && !s.signal.isStopped then some fault else none
  | _ => none

theorem fails?_of_running (phase : s.phase = .searching) (running : s.signal.isStopped = false)
    (response : Except TransportFault SearchResponse) :
    s.fails? (.answer now response) = (Note.answered response).fault? := by
  cases response with
  | ok found => rfl
  | error fault => simp [fails?, Note.fault?, isSearching, phase, running]

theorem fails?_of_deaf (deaf : s.isSearching = false ∨ s.signal.isStopped = true)
    (response : Except TransportFault SearchResponse) :
    s.fails? (.answer now response) = none := by
  cases response with
  | ok found => rfl
  | error fault => rcases deaf with other | stopped <;> simp [fails?, *]

/-- The faults that a session hears of in a run, first one first. -/
def failures (s : Session) (cues : List Cue) : List TransportFault := s.along fails? cues

@[simp] theorem faults_ask (s : Session) (now : Nat) : (s.ask now).faults = s.faults :=
  (faults_note _ now (.asked s.watermark)).trans (List.append_nil _)

theorem faults_handOver {b : Bug} {rest : List Bug} {next : ResourceVersion}
    (handed : s.handOver? now b rest next = some t) : t.faults = s.faults := by
  rcases handOver_cases handed with ⟨_, rfl⟩ | ⟨_, _, rfl⟩
  · rw [faults_finish, faults_fire]
  · exact faults_push _ now _

theorem Move.faults {args : Option SearchArgs} (move : Move s now t args) :
    t.faults = s.faults := by
  cases move with
  | expire => exact faults_fire s now .expired
  | leave => exact faults_leave s now
  | ask => exact faults_ask s now
  | conclude => exact faults_conclude _ now .ok
  | deliver => exact faults_push _ now _
  | abandon => rw [faults_finish, faults_fire]
  | report => rw [faults_finish, faults_push]
  | vanish => exact faults_finish s now

/-- The fault in an answer that is looked at is heard of. -/
theorem Picks.faults {response : Except TransportFault SearchResponse}
    (picks : Picks s now response t) :
    t.faults = s.faults ++ (Note.answered response).fault?.toList := by
  cases picks with
  | @failed fault =>
      change (fire ((s.note now (.answered (.error fault))).conclude now .error) now .failed).faults
        = _
      rw [faults_fire, faults_conclude, faults_note]
  | empty | skipped => exact (faults_conclude _ now _).trans (faults_note s now _)
  | accepted => exact faults_note s now _

theorem Hears.faults {response : Except TransportFault SearchResponse}
    (hears : Hears s now response t) :
    t.faults = s.faults ++ (s.fails? (.answer now response)).toList := by
  cases hears with
  | unasked phase => simp [fails?_of_deaf (.inl (decide_eq_false phase))]
  | late phase stopped => simp [fails?_of_deaf (.inr stopped)]
  | picked phase running picks => rw [fails?_of_running phase running, picks.faults]

theorem faults_follow {cue : Cue} (h : s.follow? cue = some t) :
    t.faults = s.faults ++ (s.fails? cue).toList := by
  have same : t.faults = s.faults → s.fails? cue = none →
      t.faults = s.faults ++ (s.fails? cue).toList := by
    intro kept silent
    rw [kept, silent, Option.toList_none, List.append_nil]
  cases cue with
  | expire time => exact same (move_of_expire h).faults rfl
  | proceed time =>
      obtain ⟨⟨u, args⟩, move, rfl⟩ := Option.map_eq_some_iff.mp h
      exact same (move_of_proceed move).faults rfl
  | answer time response =>
      cases h
      exact (hears_answer s time response).faults
  | take time =>
      obtain ⟨⟨event, u⟩, taken, rfl⟩ := Option.map_eq_some_iff.mp h
      refine same ?_ rfl
      rw [(queue_of_take taken).2, faults_note]
      exact List.append_nil _
  | stop time =>
      cases h
      exact same (faults_fire s time .requested) rfl
  | close =>
      cases h
      exact same rfl rfl
  | drop time =>
      cases h
      exact same (faults_fire _ time .requested) rfl

theorem faults_of_run {cues : List Cue} (run : s.run? cues = some t) :
    t.faults = s.faults ++ s.failures cues :=
  along_of_run (P := fun _ => True) (g := faults) (fun _ _ => trivial)
    (fun h _ => faults_follow h) run trivial

/-! ## What stopped a session -/

theorem isStopped_iff : s.signal.isStopped = true ↔ ∃ reason, s.signal.reason = some reason := by
  rw [StopSignal.isStopped, StopSignal.cancelled_eq_isSome, Option.isSome_iff_exists]

/-- A signal that has fired keeps its reason. -/
theorem reason_fire (s : Session) (now : Nat) (reason : StopReason) :
    (s.fire now reason).signal.reason = some (s.signal.reason.getD reason) := by
  rcases s.fire_cases now reason with ⟨stopped, same⟩ | ⟨running, fired⟩
  · obtain ⟨first, known⟩ := isStopped_iff.mp stopped
    rw [same, known, Option.getD_some]
  · have unknown : s.signal.reason = none := by
      simpa [StopSignal.isStopped] using running
    rw [fired, unknown]
    rfl

theorem reason_fire_eq_iff {reason other : StopReason} (ne : reason ≠ other) :
    (s.fire now reason).signal.reason = some other ↔ s.signal.reason = some other := by
  rw [reason_fire]
  cases s.signal.reason with
  | none => simp [ne]
  | some first => rfl

theorem fire_of_stopped (stopped : s.signal.isStopped = true) (now : Nat) (reason : StopReason) :
    s.fire now reason = s := by
  rcases s.fire_cases now reason with ⟨_, same⟩ | ⟨running, _⟩
  · exact same
  · rw [stopped] at running
    cases running

@[simp] theorem signal_leave (s : Session) (now : Nat) : (s.leave now).signal = s.signal := by
  rcases s.leave_cases now with closing | ended
  · rw [closing]
    rfl
  · rw [ended]
    rfl

theorem signal_of_handOver {b : Bug} {rest : List Bug} {next : ResourceVersion}
    (handed : s.handOver? now b rest next = some t) :
    t.signal = s.signal ∨ t.signal = (s.fire now .finished).signal := by
  rcases handOver_cases handed with ⟨_, rfl⟩ | ⟨_, _, rfl⟩
  · exact .inr rfl
  · exact .inl rfl

/-- The work of a session fires the signal only when nobody accepts its events. -/
theorem signal_of_proceed {args : Option SearchArgs} (h : s.proceed? now = some (t, args)) :
    t.signal = s.signal ∨ t.signal = (s.fire now .finished).signal := by
  unfold proceed? at h
  split at h
  · split at h
    · cases h
      exact .inl (signal_leave s now)
    · split at h <;> cases h
      exact .inl rfl
  · split at h <;> cases h
    exact .inl (signal_leave s now)
  · cases h
    exact .inl rfl
  · obtain ⟨u, handed, same⟩ := Option.map_eq_some_iff.mp h
    cases same
    simp only [deliver?] at handed
    split at handed
    · cases handed
      exact .inl (signal_leave s now)
    · exact signal_of_handOver handed
  · split at h
    · cases h
      exact .inl rfl
    · split at h <;> cases h
      exact .inl rfl
  · cases h

/-- An answer stops a session for no other reason than its fault. -/
theorem Picks.reason_iff {response : Except TransportFault SearchResponse}
    (picks : Picks s now response t) {reason : StopReason} (unlike : .failed ≠ reason) :
    t.signal.reason = some reason ↔ s.signal.reason = some reason := by
  cases picks with
  | failed => exact reason_fire_eq_iff unlike
  | empty | skipped | accepted => rfl

/-- A fault that finds the signal fired leaves the reason. -/
theorem Picks.signal_of_stopped {response : Except TransportFault SearchResponse}
    (picks : Picks s now response t) (stopped : s.signal.isStopped = true) :
    t.signal = s.signal := by
  cases picks with
  | @failed fault =>
      let u := (s.note now (.answered (.error fault))).conclude now .error
      change (u.fire now .failed).signal = u.signal
      rw [fire_of_stopped (s := u) stopped]
  | empty | skipped | accepted => rfl

theorem Hears.reason_iff {response : Except TransportFault SearchResponse}
    (hears : Hears s now response t) {reason : StopReason} (unlike : .failed ≠ reason) :
    t.signal.reason = some reason ↔ s.signal.reason = some reason := by
  cases hears with
  | unasked => rfl
  | late => rw [signal_leave]
  | picked _ _ picks => exact picks.reason_iff unlike

/-- Only the end of the lifetime stops a session for that reason, and only if nothing has stopped
it before. -/
theorem expired_follow {cue : Cue} (h : s.follow? cue = some t) :
    t.signal.reason = some .expired ↔
      s.signal.reason = some .expired ∨ ∃ time, cue = .expire time := by
  have other : (t.signal.reason = some .expired ↔ s.signal.reason = some .expired) →
      (∀ time, cue ≠ .expire time) →
      (t.signal.reason = some .expired ↔
        s.signal.reason = some .expired ∨ ∃ time, cue = .expire time) := by
    intro kept unlike
    simp [kept, unlike]
  cases cue with
  | expire time =>
      have running : s.signal.isStopped = false := by
        cases stopped : s.signal.isStopped with
        | false => rfl
        | true => simp [follow?, expire?, stopped] at h
      have fired : s.fire time .expired = t := by
        simp only [follow?, expire?] at h
        split at h <;> cases h
        rfl
      have unknown : s.signal.reason = none := by
        simpa [StopSignal.isStopped] using running
      simp [← fired, reason_fire, unknown]
  | proceed time =>
      obtain ⟨⟨u, args⟩, move, rfl⟩ := Option.map_eq_some_iff.mp h
      refine other ?_ (by simp)
      rcases signal_of_proceed move with same | fired
      · rw [same]
      · rw [fired]
        exact reason_fire_eq_iff (by decide)
  | answer time response =>
      cases h
      exact other ((hears_answer s time response).reason_iff (by decide)) (by simp)
  | take time =>
      obtain ⟨⟨event, u⟩, taken, rfl⟩ := Option.map_eq_some_iff.mp h
      refine other ?_ (by simp)
      rw [(queue_of_take taken).2]
      rfl
  | stop time =>
      cases h
      exact other (reason_fire_eq_iff (by decide)) (by simp)
  | close =>
      cases h
      exact other Iff.rfl (by simp)
  | drop time =>
      cases h
      exact other (reason_fire_eq_iff (by decide)) (by simp)

/-- A session was stopped by the end of its lifetime exactly if that is a cue of its run. -/
theorem expired_of_run {cues : List Cue} (run : s.run? cues = some t) :
    t.signal.reason = some .expired ↔
      s.signal.reason = some .expired ∨ ∃ time, .expire time ∈ cues := by
  induction cues generalizing s with
  | nil =>
      cases run
      simp
  | cons cue cues ih =>
      obtain ⟨u, first, rest⟩ := Option.bind_eq_some_iff.mp run
      rw [ih rest, expired_follow first, or_assoc]
      simp [eq_comm, exists_or]

/-- What a cue does to a session that has been stopped: it goes on with its work, or its consumer
takes an event or goes away, and otherwise only the answer to its search has it leave its work. -/
inductive WindsDown (s : Session) : Cue → Session → Prop where
  | proceed {now : Nat} {t : Session} {args : Option SearchArgs}
      (proceeds : s.proceed? now = some (t, args)) : WindsDown s (.proceed now) t
  | late {now : Nat} {response : Except TransportFault SearchResponse}
      (phase : s.phase = .searching) : WindsDown s (.answer now response) (s.leave now)
  | unasked {now : Nat} {response : Except TransportFault SearchResponse} :
      WindsDown s (.answer now response) s
  | take {now : Nat} {t : Session} {event : WatchEvent}
      (taken : s.take? now = some (event, t)) : WindsDown s (.take now) t
  | stop {now : Nat} : WindsDown s (.stop now) s
  | close : WindsDown s .close s.close
  | drop {now : Nat} : WindsDown s (.drop now) { s.close with queue := [] }

theorem windsDown_of_follow (stopped : s.signal.isStopped = true) {cue : Cue}
    (h : s.follow? cue = some t) : WindsDown s cue t := by
  cases cue with
  | expire time => simp [follow?, expire?, stopped] at h
  | proceed time =>
      obtain ⟨⟨u, args⟩, proceeds, rfl⟩ := Option.map_eq_some_iff.mp h
      exact .proceed proceeds
  | answer time response =>
      cases h
      have hears := hears_answer s time response
      generalize s.answer time response = t at hears
      cases hears with
      | unasked => exact .unasked
      | late phase => exact .late phase
      | picked _ running =>
          rw [stopped] at running
          cases running
  | take time =>
      obtain ⟨⟨event, u⟩, taken, rfl⟩ := Option.map_eq_some_iff.mp h
      exact .take taken
  | stop time =>
      cases h
      rw [stop, fire_of_stopped stopped]
      exact .stop
  | close =>
      cases h
      exact .close
  | drop time =>
      cases h
      rw [drop, stop, fire_of_stopped (by exact stopped)]
      exact .drop

/-- Whatever happens to a session that has been stopped, the reason stays. -/
theorem signal_follow (stopped : s.signal.isStopped = true) {cue : Cue}
    (h : s.follow? cue = some t) : t.signal = s.signal := by
  cases windsDown_of_follow stopped h with
  | proceed proceeds =>
      rcases signal_of_proceed proceeds with same | fired
      · exact same
      · rw [fired, fire_of_stopped stopped]
  | @late now => exact signal_leave s now
  | take taken =>
      rw [(queue_of_take taken).2]
      rfl
  | unasked | stop | close | drop => rfl

theorem signal_of_run (stopped : s.signal.isStopped = true) {cues : List Cue}
    (run : s.run? cues = some t) : t.signal = s.signal :=
  run?_preserves (P := fun t => t.signal = s.signal)
    (fun h same => (signal_follow (by rw [same, stopped]) h).trans same) run rfl

/-- A session that has been stopped hears of no fault. -/
theorem failures_of_stopped (stopped : s.signal.isStopped = true) {cues : List Cue}
    (run : s.run? cues = some t) : s.failures cues = [] := by
  induction cues generalizing s with
  | nil => rfl
  | cons cue cues ih =>
      obtain ⟨u, first, rest⟩ := Option.bind_eq_some_iff.mp run
      have deaf : s.fails? cue = none := by
        cases cue with
        | answer time response => exact fails?_of_deaf (.inr stopped) response
        | expire | proceed | take | stop | close | drop => rfl
      refine (along_cons first cues).trans ?_
      rw [deaf, ← failures, ih (by rw [signal_follow stopped first, stopped]) rest]
      rfl

/-! ## What a session owes -/

/-- The faults that the session handed over. -/
def reports (s : Session) : List Status := s.delivered.filterMap WatchEvent.status?

/-- The fault that a session owes its consumer: that of the search that failed, or else the end of
its lifetime, if that stopped it. -/
def owed? (s : Session) : Option Status :=
  match s.faults with
  | fault :: _ => some (.internalError fault)
  | [] =>
    if s.signal.reason = some .expired then some (.expired (.ofMillis s.plan.lifetime)) else none

theorem owed?_of_failed {fault : TransportFault} (faults : s.faults = [fault]) :
    s.owed? = some (.internalError fault) := by
  rw [owed?, faults]

theorem owed?_of_expired (unheard : s.faults = []) (reason : s.signal.reason = some .expired) :
    s.owed? = some (.expired (.ofMillis s.plan.lifetime)) := by
  simp only [owed?, unheard, reason, if_true]

theorem owed?_of_other (unheard : s.faults = []) (unexpired : s.signal.reason ≠ some .expired) :
    s.owed? = none := by
  simp only [owed?, unheard, unexpired, if_false]

/-- What becomes of the fault that is owed: no search has failed while the session works, the fault
is about to be handed over while it closes, and it has been once it ended, unless nobody was there
to accept it. -/
def Owes (s : Session) : Phase → Prop
  | .pausing _ | .searching | .delivering _ _ _ => s.faults = []
  | .closing status => s.owed? = some status
  | .ended => s.reports = s.owed?.toList ∨ s.attached = false ∧ s.reports = []

/-- A session hears of one fault at most, and of one if a failed search stopped it, and it pays what
it owes. -/
structure Accounts (s : Session) : Prop where
  heard : s.faults = [] ∨ ∃ fault, s.faults = [fault]
  failed : s.signal.reason = some .failed → s.faults ≠ []
  owes : s.Owes s.phase

theorem accounts_start (now : Nat) (present : Instant) (plan : WatchPlan) :
    (start now present plan).Accounts where
  heard := .inl rfl
  failed := nofun
  owes := rfl

/-- What is handed over before the fault are events about bugs. -/
theorem Told.about_bugs (told : s.Told) {event : WatchEvent} (member : event ∈ s.changes) :
    ∃ b, event = s.plan.eventOf b := by
  obtain ⟨p, inside, handed⟩ := List.mem_flatMap.mp member
  obtain ⟨done, rest, hands⟩ := told.history.handsOver (List.mem_reverse.mp inside)
  rw [hands.events] at handed
  obtain ⟨b, _, same⟩ := List.mem_map.mp handed
  exact ⟨b, same.symm⟩

theorem Told.filterMap_status?_changes (told : s.Told) :
    s.changes.filterMap WatchEvent.status? = [] := by
  rw [List.filterMap_eq_nil_iff]
  intro event member
  obtain ⟨b, rfl⟩ := told.about_bugs member
  exact s.plan.status?_eventOf b

/-- A session hands no fault over before it ends. -/
theorem Told.reports_eq_nil (told : s.Told) (passes : s.Passes) (open_ : s.phase ≠ .ended) :
    s.reports = [] := by
  rw [reports, passes.delivered_eq open_, told.filterMap_status?_changes]

theorem Told.reports_of_quiet (told : s.Told) (passes : s.Passes) (open_ : s.phase ≠ .ended)
    (quiet : Quiet s t) : t.reports = [] := by
  rw [reports, quiet.delivered]
  exact told.reports_eq_nil passes open_

namespace Accounts

variable (accounts : s.Accounts)

include accounts

theorem of_same (reason : t.signal.reason = s.signal.reason) (plan : t.plan = s.plan)
    (faults : t.faults = s.faults) (reports : t.reports = s.reports)
    (attached : t.attached = true → s.attached = true) (phase : t.phase = s.phase) :
    t.Accounts := by
  have owed : t.owed? = s.owed? := by rw [owed?, owed?, reason, plan, faults]
  refine ⟨by rw [faults]; exact accounts.heard, by rw [reason, faults]; exact accounts.failed, ?_⟩
  have owes := accounts.owes
  rw [phase]
  cases now : s.phase with
  | pausing wake | searching | delivering rest last next =>
      rw [now] at owes
      exact faults.trans owes
  | closing status =>
      rw [now] at owes
      exact owed.trans owes
  | ended =>
      rw [now] at owes
      rcases owes with paid | ⟨detached, nothing⟩
      · exact .inl (by rw [reports, paid, owed])
      · refine .inr ⟨eq_false_of_ne_true fun still => ?_, reports.trans nothing⟩
        rw [attached still] at detached
        cases detached

theorem owes_of {phase : Phase} (same : s.phase = phase) : s.Owes phase := same ▸ accounts.owes

/-- A session that still works has heard of no fault. -/
theorem unheard (point : Leaves s.phase) : s.faults = [] := by
  have owes := accounts.owes
  generalize s.phase = phase at owes point
  cases point <;> exact owes

theorem fire (told : s.Told) {reason : StopReason} (unlike : reason ≠ .failed) :
    (s.fire now reason).Accounts := by
  rcases s.fire_cases now reason with ⟨_, same⟩ | ⟨running, _⟩
  · rw [same]
    exact accounts
  · have faults := faults_fire s now reason
    refine ⟨by rw [faults]; exact accounts.heard, ?_, ?_⟩
    · rw [reason_fire_eq_iff unlike, faults]
      exact accounts.failed
    · rw [phase_fire]
      rw [Told] at told
      cases phase : s.phase with
      | pausing wake | searching | delivering rest last next =>
          exact faults.trans (accounts.owes_of phase)
      | closing status | ended =>
          rw [phase, running] at told
          exact absurd told.1 Bool.false_ne_true

theorem leave (told : s.Told) (passes : s.Passes) (point : Leaves s.phase) :
    (s.leave now).Accounts := by
  have unheard := accounts.unheard point
  have unreported := told.reports_of_quiet passes point.ne_ended
    (.leave point.ne_ended : Quiet s (s.leave now))
  refine ⟨.inl (by rwa [faults_leave]), by rw [signal_leave, faults_leave]; exact accounts.failed,
    ?_⟩
  have owed : (s.leave now).owed? = s.owed? := by
    rw [owed?, owed?, signal_leave, faults_leave, plan_leave]
  by_cases expired : s.signal.reason = some .expired
  · have closing : (s.leave now).phase = .closing (.expired (.ofMillis s.plan.lifetime)) := by
      rw [Session.leave, if_pos expired]
      rfl
    rw [closing]
    exact owed.trans (owed?_of_expired unheard expired)
  · have ended : (s.leave now).phase = .ended := by
      rw [Session.leave, if_neg expired]
      rfl
    rw [ended]
    exact .inl (by rw [unreported, owed, owed?_of_other unheard expired]; rfl)

/-- A state in which a session that has heard of no fault works on. -/
theorem works {phase : Phase} (before : s.phase = phase)
    (working : s.Owes phase ↔ s.faults = []) (signal : t.signal = s.signal)
    (faults : t.faults = s.faults) (after : t.Owes t.phase ↔ t.faults = []) : t.Accounts := by
  have unheard := faults.trans (working.mp (accounts.owes_of before))
  refine ⟨.inl unheard, ?_, after.mpr unheard⟩
  rw [signal, faults]
  exact accounts.failed

theorem ask {wake : Nat} (phase : s.phase = .pausing wake) (now : Nat) : (s.ask now).Accounts :=
  accounts.works phase Iff.rfl rfl (faults_ask s now) Iff.rfl

theorem handOver (told : s.Told) (passes : s.Passes) {b : Bug} {rest : List Bug}
    {last : Option Instant} {next : ResourceVersion}
    (phase : s.phase = .delivering (b :: rest) last next)
    (handed : s.handOver? now b rest next = some t) : t.Accounts := by
  have faults := faults_handOver handed
  rcases handOver_cases handed with ⟨detached, rfl⟩ | ⟨_, _, rfl⟩
  · have open_ : s.phase ≠ .ended := by rw [phase]; nofun
    refine ⟨.inl (faults.trans (accounts.owes_of phase)), ?_, ?_⟩
    · rw [faults]
      exact fun known => accounts.failed ((reason_fire_eq_iff (by decide)).mp known)
    · exact .inr ⟨(s.attached_fire now .finished).trans detached,
        told.reports_of_quiet passes open_ (.abandon open_)⟩
  · exact accounts.works phase Iff.rfl rfl faults Iff.rfl

theorem move {args : Option SearchArgs} (told : s.Told) (passes : s.Passes)
    (move : Move s now t args) : t.Accounts := by
  have faults := move.faults
  cases move with
  | expire => exact accounts.fire told (by decide)
  | leave _ point => exact accounts.leave told passes point
  | ask _ phase => exact accounts.ask phase now
  | conclude phase => exact accounts.works phase Iff.rfl rfl faults Iff.rfl
  | deliver phase room attached =>
      exact accounts.handOver told passes phase (handOver_of_room room attached)
  | abandon phase detached => exact accounts.handOver told passes phase (handOver_of_gone detached)
  | @report status phase _ attached =>
      have open_ : s.phase ≠ .ended := by rw [phase]; nofun
      have quiet : Quiet (s.push now (.error status)) ((s.push now (.error status)).finish now) :=
        .finish (by rw [phase_push]; exact open_)
      have owed : ((s.push now (.error status)).finish now).owed? = some status := by
        have owes : s.owed? = some status := accounts.owes_of phase
        rw [owed?, ← faults] at owes
        exact owes
      have none_before := told.reports_eq_nil passes open_
      refine ⟨by rw [faults]; exact accounts.heard, by rw [faults]; exact accounts.failed, .inl ?_⟩
      rw [owed, reports, quiet.delivered, delivered_push, List.filterMap_append, ← reports,
        none_before]
      rfl
  | vanish phase detached =>
      have open_ : s.phase ≠ .ended := by rw [phase]; nofun
      exact ⟨by rw [faults]; exact accounts.heard, by rw [faults]; exact accounts.failed,
        .inr ⟨detached, told.reports_of_quiet passes open_ (.finish open_)⟩⟩

theorem picks {response : Except TransportFault SearchResponse} (phase : s.phase = .searching)
    (picks : Picks s now response t) : t.Accounts := by
  have faults := picks.faults
  cases picks with
  | @failed fault =>
      rw [accounts.unheard (phase ▸ .searching)] at faults
      refine ⟨.inr ⟨fault, faults⟩, fun _ => ?_, owed?_of_failed faults⟩
      rw [faults]
      nofun
  | empty | skipped | accepted =>
      exact accounts.works phase Iff.rfl rfl (faults.trans (List.append_nil _)) Iff.rfl

theorem hears {response : Except TransportFault SearchResponse} (told : s.Told)
    (passes : s.Passes) (hears : Hears s now response t) : t.Accounts := by
  cases hears with
  | unasked => exact accounts
  | late phase => exact accounts.leave told passes (phase ▸ .searching)
  | picked phase _ picks => exact accounts.picks phase picks

theorem take {event : WatchEvent} (taken : s.take? now = some (event, t)) : t.Accounts := by
  have same := (queue_of_take taken).2
  refine accounts.of_same ?_ ?_ ?_ ?_ ?_ ?_
  · rw [same]
    rfl
  · rw [same]
    rfl
  · rw [same, faults_note]
    exact List.append_nil _
  · rw [same, reports, delivered_note]
    exact congrArg _ (List.append_nil _)
  · intro attached
    rw [same] at attached
    exact attached
  · rw [same]
    rfl

theorem close : s.close.Accounts := accounts.of_same rfl rfl rfl rfl nofun rfl

end Accounts

/-! ## Every run -/

/-- A session does as its polls tell, hands its events over in order, and pays what it owes. -/
structure Lawful (s : Session) : Prop where
  told : s.Told
  passes : s.Passes
  accounts : s.Accounts

theorem lawful_start (now : Nat) (present : Instant) (plan : WatchPlan) :
    (start now present plan).Lawful :=
  ⟨told_start now present plan, passes_start now present plan, accounts_start now present plan⟩

namespace Lawful

variable (lawful : s.Lawful)

include lawful

theorem move {args : Option SearchArgs} (move : Move s now t args) : t.Lawful :=
  ⟨lawful.told.move move, lawful.passes.traffic move.traffic lawful.told,
    lawful.accounts.move lawful.told lawful.passes move⟩

theorem ask {wake : Nat} (phase : s.phase = .pausing wake) (now : Nat) : (s.ask now).Lawful :=
  ⟨lawful.told.ask phase now, lawful.passes.ask phase now, lawful.accounts.ask phase now⟩

theorem handOver {b : Bug} {rest : List Bug} {last : Option Instant} {next : ResourceVersion}
    (phase : s.phase = .delivering (b :: rest) last next)
    (handed : s.handOver? now b rest next = some t) : t.Lawful := by
  have accounts := lawful.accounts.handOver lawful.told lawful.passes phase handed
  rcases handOver_cases handed with ⟨detached, rfl⟩ | ⟨attached, _, rfl⟩
  · have quiet : Quiet s ((s.fire now .finished).finish now) := .abandon (by rw [phase]; nofun)
    exact ⟨lawful.told.abandon phase detached now, lawful.passes.quiet quiet, accounts⟩
  · exact ⟨lawful.told.deliver phase now, lawful.passes.deliver lawful.told phase attached now,
      accounts⟩

theorem picks {response : Except TransportFault SearchResponse} (phase : s.phase = .searching)
    (picks : Picks s now response t) : t.Lawful :=
  ⟨lawful.told.picks phase picks, lawful.passes.quiet (picks.quiet phase),
    lawful.accounts.picks phase picks⟩

theorem hears {response : Except TransportFault SearchResponse}
    (hears : Hears s now response t) : t.Lawful :=
  ⟨lawful.told.hears hears, lawful.passes.quiet hears.quiet,
    lawful.accounts.hears lawful.told lawful.passes hears⟩

theorem take {event : WatchEvent} (taken : s.take? now = some (event, t)) : t.Lawful :=
  ⟨lawful.told.take taken, lawful.passes.take taken, lawful.accounts.take taken⟩

theorem stop (now : Nat) : (s.stop now).Lawful :=
  ⟨lawful.told.fire now .requested, lawful.passes.quiet (.fire s now .requested),
    lawful.accounts.fire lawful.told (by decide)⟩

theorem follow {cue : Cue} (h : s.follow? cue = some t) : t.Lawful := by
  cases cue with
  | expire time => exact lawful.move (move_of_expire h)
  | proceed time =>
      obtain ⟨⟨u, args⟩, move, rfl⟩ := Option.map_eq_some_iff.mp h
      exact lawful.move (move_of_proceed move)
  | answer time response =>
      cases h
      exact lawful.hears (hears_answer s time response)
  | take time =>
      obtain ⟨⟨event, u⟩, taken, rfl⟩ := Option.map_eq_some_iff.mp h
      exact lawful.take taken
  | stop time =>
      cases h
      exact lawful.stop time
  | close =>
      exact ⟨lawful.told.follow h, lawful.passes.follow h lawful.told, by
        cases h
        exact lawful.accounts.close⟩
  | drop time =>
      refine ⟨lawful.told.follow h, lawful.passes.follow h lawful.told, ?_⟩
      cases h
      have emptied : ({ s.close with queue := [] } : Session).Accounts :=
        lawful.accounts.of_same rfl rfl rfl rfl nofun rfl
      have told : ({ s.close with queue := [] } : Session).Told := lawful.told.close
      exact emptied.fire told (by decide)

end Lawful

/-- **A session pays what it owes, in every run.** -/
theorem lawful_of_run {now : Nat} {present : Instant} {plan : WatchPlan} {s : Session}
    {cues : List Cue} (run : (start now present plan).run? cues = some s) : s.Lawful :=
  run?_preserves (fun h lawful => lawful.follow h) run (lawful_start now present plan)

/-- A session owes the fault of the search that failed, or else the end of its lifetime if that
stopped it. -/
theorem Accounts.owed?_eq_some_iff (accounts : s.Accounts) {status : Status} :
    s.owed? = some status ↔
      (∃ fault ∈ s.faults, status = .internalError fault) ∨
        s.faults = [] ∧ s.signal.reason = some .expired ∧
          status = .expired (.ofMillis s.plan.lifetime) := by
  rcases accounts.heard with unheard | ⟨fault, faults⟩
  · by_cases expired : s.signal.reason = some .expired
    · rw [owed?_of_expired unheard expired, unheard]
      simp [expired, eq_comm]
    · rw [owed?_of_other unheard expired, unheard]
      simp [expired]
  · rw [owed?_of_failed faults, faults]
    simp [eq_comm]

/-- A session that nothing has stopped has heard of no fault. -/
theorem Lawful.unheard_of_running (lawful : s.Lawful) (running : s.signal.isStopped = false) :
    s.faults = [] := by
  have told := lawful.told
  rw [Told] at told
  cases phase : s.phase with
  | pausing | searching | delivering => exact lawful.accounts.owes_of phase
  | closing | ended =>
      rw [phase, running] at told
      exact absurd told.1 Bool.false_ne_true

/-- What a session hands over as a fault is what it owes, and it has ended with it. -/
theorem Lawful.owed_of_mem_reports (lawful : s.Lawful) {status : Status}
    (member : status ∈ s.reports) : s.phase = .ended ∧ s.owed? = some status := by
  have ended : s.phase = .ended := by
    by_contra open_
    rw [lawful.told.reports_eq_nil lawful.passes open_] at member
    cases member
  have owes : s.Owes .ended := lawful.accounts.owes_of ended
  refine ⟨ended, ?_⟩
  rcases owes with paid | ⟨_, nothing⟩
  · rw [paid] at member
    exact Option.mem_toList.mp member
  · rw [nothing] at member
    cases member

end Session

end BugFeed
