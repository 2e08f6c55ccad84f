import BugFeed.Proofs.Watch.Batch

/-!
# Runs of a watch session

A run of a session is a list of cues: its own moves and what happens to it, each at a time of its
own, in any order. So a run may end the lifetime, stop the session or take an event at any point
of any poll, and a statement about all runs is one about all schedules.

What a session does by itself is one of a few moves (`Move`, `move_of_expire`, `move_of_proceed`).
What a property needs to survive a run is that each cue preserves it (`run?_preserves`).
-/

namespace BugFeed

set_option autoImplicit false

namespace Session

/-! ## Cues -/

/-- One thing that a session does or that happens to it. -/
inductive Cue where
  /-- The lifetime ends. -/
  | expire (now : Nat)
  /-- The session goes on with its work. -/
  | proceed (now : Nat)
  /-- The answer to the search comes. -/
  | answer (now : Nat) (response : Except TransportFault SearchResponse)
  /-- The consumer takes an event. -/
  | take (now : Nat)
  /-- Someone asks the session to stop. -/
  | stop (now : Nat)
  /-- The consumer accepts no further events. -/
  | close
  /-- The consumer goes away. -/
  | drop (now : Nat)

/-- The session after a cue, if it can follow it. -/
def follow? (s : Session) : Cue → Option Session
  | .expire now => s.expire? now
  | .proceed now => (s.proceed? now).map Prod.fst
  | .answer now response => some (s.answer now response)
  | .take now => (s.take? now).map Prod.snd
  | .stop now => some (s.stop now)
  | .close => some s.close
  | .drop now => some (s.drop now)

/-- The session after a run, if it can follow all its cues. -/
def run? (s : Session) : List Cue → Option Session
  | [] => some s
  | cue :: cues => (s.follow? cue).bind fun t => t.run? cues

/-- What every cue preserves, every run preserves. -/
theorem run?_preserves {P : Session → Prop}
    (step : ∀ {s t : Session} {cue : Cue}, s.follow? cue = some t → P s → P t)
    {s t : Session} {cues : List Cue} (run : s.run? cues = some t) (hs : P s) : P t := by
  induction cues generalizing s with
  | nil =>
      cases run
      exact hs
  | cons cue cues ih =>
      obtain ⟨u, first, rest⟩ := Option.bind_eq_some_iff.mp run
      exact ih rest (step first hs)

/-! ## The moves of a session -/

/-- A session that fires its signal either had fired it before or notes the reason. -/
theorem fire_cases (s : Session) (now : Nat) (reason : StopReason) :
    (s.signal.isStopped = true ∧ s.fire now reason = s) ∨
      (s.signal.isStopped = false ∧
        s.fire now reason =
          { s with signal := ⟨some reason, true, rfl⟩ }.note now (.fired reason)) := by
  rcases s with ⟨_, _, _, _, _, ⟨_ | first, _, rfl⟩, _, _, _, _⟩
  · exact .inr ⟨rfl, rfl⟩
  · exact .inl ⟨rfl, rfl⟩

theorem isStopped_fire (s : Session) (now : Nat) (reason : StopReason) :
    (s.fire now reason).signal.isStopped = true := by
  rcases s.fire_cases now reason with ⟨stopped, same⟩ | ⟨_, fired⟩
  · rw [same, stopped]
  · rw [fired]
    rfl

/-- A session that leaves its work closes with the fault of its lifetime, or just ends. -/
theorem leave_cases (s : Session) (now : Nat) :
    s.leave now =
        { s with phase := .closing (.expired (.ofMillis s.plan.lifetime)) }.count .sessionExpired ∨
      s.leave now = s.finish now := by
  rw [leave]
  split
  · exact .inl rfl
  · exact .inr rfl

/-- The point at which a stop is looked at: in a pause, during a search, and before a change that
begins a new second. -/
inductive Leaves : Phase → Prop where
  | pausing (wake : Nat) : Leaves (.pausing wake)
  | searching : Leaves .searching
  | delivering {b : Bug} {rest : List Bug} {last : Option Instant} {next : ResourceVersion}
      (fresh : last ≠ some b.lastChange.truncate) : Leaves (.delivering (b :: rest) last next)

/-- Everything that a session does by itself, with the search that it begins. -/
inductive Move (s : Session) (now : Nat) : Session → Option SearchArgs → Prop where
  /-- The lifetime ends. -/
  | expire (running : s.signal.isStopped = false) : Move s now (s.fire now .expired) none
  /-- A stop is obeyed. -/
  | leave (stopped : s.signal.isStopped = true) (point : Leaves s.phase) :
      Move s now (s.leave now) none
  /-- A search begins. -/
  | ask {wake : Nat} (running : s.signal.isStopped = false) (phase : s.phase = .pausing wake) :
      Move s now ({ s with phase := .searching }.note now (.asked s.watermark))
        (some (s.plan.searchSince s.watermark))
  /-- All changes of an answer have been handed over. -/
  | conclude {last : Option Instant} {next : ResourceVersion}
      (phase : s.phase = .delivering [] last next) :
      Move s now (({ s with watermark := next }.conclude now .ok).pause now) none
  /-- A change is handed over. Once the session has been stopped, it is one of the second that was
  begun. -/
  | deliver {b : Bug} {rest : List Bug} {last : Option Instant} {next : ResourceVersion}
      (phase : s.phase = .delivering (b :: rest) last next) (room : s.hasRoom = true)
      (attached : s.attached = true)
      (begun : s.signal.isStopped = true → last = some b.lastChange.truncate) :
      Move s now
        ({ s with phase := .delivering rest (some b.lastChange.truncate) next }.push now
          (s.plan.eventOf b)) none
  /-- Nobody accepts the change. -/
  | abandon {b : Bug} {rest : List Bug} {last : Option Instant} {next : ResourceVersion}
      (phase : s.phase = .delivering (b :: rest) last next) (detached : s.attached = false) :
      Move s now ((s.fire now .finished).finish now) none
  /-- The fault that ends the session is handed over. -/
  | report {status : Status} (phase : s.phase = .closing status) (room : s.hasRoom = true)
      (attached : s.attached = true) :
      Move s now ((s.push now (.error status)).finish now) none
  /-- Nobody accepts the fault. -/
  | vanish {status : Status} (phase : s.phase = .closing status)
      (detached : s.attached = false) : Move s now (s.finish now) none

theorem move_of_expire {s t : Session} {now : Nat} (h : s.expire? now = some t) :
    Move s now t none := by
  simp only [expire?] at h
  split at h
  · cases h
  · rename_i early
    cases h
    refine .expire ?_
    simp only [not_or, Bool.not_eq_true] at early
    exact early.1

/-- A change is handed over if there is room for it, and if nobody accepts it the session ends. -/
theorem handOver_cases {s t : Session} {now : Nat} {b : Bug} {rest : List Bug}
    {next : ResourceVersion} (handed : s.handOver? now b rest next = some t) :
    (s.attached = false ∧ t = (s.fire now .finished).finish now) ∨
      (s.attached = true ∧ s.hasRoom = true ∧
        t = { s with phase := .delivering rest (some b.lastChange.truncate) next }.push now
          (s.plan.eventOf b)) := by
  simp only [handOver?] at handed
  split at handed
  · rename_i detached
    cases handed
    exact .inl ⟨by simpa using detached, rfl⟩
  · rename_i attached
    split at handed
    · rename_i room
      cases handed
      exact .inr ⟨by simpa using attached, room, rfl⟩
    · cases handed

theorem handOver_of_gone {s : Session} {now : Nat} {b : Bug} {rest : List Bug}
    {next : ResourceVersion} (detached : s.attached = false) :
    s.handOver? now b rest next = some ((s.fire now .finished).finish now) := by
  rw [handOver?, if_pos (by simp [detached])]

theorem handOver_of_room {s : Session} {now : Nat} {b : Bug} {rest : List Bug}
    {next : ResourceVersion} (room : s.hasRoom = true) (attached : s.attached = true) :
    s.handOver? now b rest next =
      some ({ s with phase := .delivering rest (some b.lastChange.truncate) next }.push now
        (s.plan.eventOf b)) := by
  rw [handOver?, if_neg (by simp [attached]), if_pos room]

theorem move_of_deliver {s t : Session} {now : Nat} {b : Bug} {rest : List Bug}
    {last : Option Instant} {next : ResourceVersion}
    (phase : s.phase = .delivering (b :: rest) last next)
    (h : s.deliver? now b rest last next = some t) : Move s now t none := by
  simp only [deliver?] at h
  split at h
  · rename_i cut
    cases h
    exact .leave cut.2 (phase ▸ .delivering cut.1)
  · rename_i uncut
    rcases handOver_cases h with ⟨detached, rfl⟩ | ⟨attached, room, rfl⟩
    · exact .abandon phase detached
    · refine .deliver phase room attached ?_
      intro stopped
      by_contra fresh
      exact uncut ⟨fresh, stopped⟩

theorem move_of_proceed {s t : Session} {now : Nat} {args : Option SearchArgs}
    (h : s.proceed? now = some (t, args)) : Move s now t args := by
  unfold proceed? at h
  split at h
  · rename_i wake phase
    split at h
    · rename_i stopped
      cases h
      exact .leave stopped (phase ▸ .pausing wake)
    · rename_i running
      split at h
      · cases h
        exact .ask (by simpa using running) phase
      · cases h
  · rename_i phase
    split at h
    · rename_i stopped
      cases h
      exact .leave stopped (phase ▸ .searching)
    · cases h
  · rename_i last next phase
    cases h
    exact .conclude phase
  · rename_i b rest last next phase
    obtain ⟨u, hu, same⟩ := Option.map_eq_some_iff.mp h
    cases same
    exact move_of_deliver phase hu
  · rename_i status phase
    split at h
    · rename_i detached
      cases h
      exact .vanish phase (by simpa using detached)
    · rename_i attached
      split at h
      · rename_i room
        cases h
        exact .report phase room (by simpa using attached)
      · cases h
  · cases h

/-! ## Answers -/

/-- Everything that a session may do upon an answer that it looks at. -/
inductive Picks (s : Session) (now : Nat) :
    Except TransportFault SearchResponse → Session → Prop where
  /-- It is a fault, which ends the session. -/
  | failed {fault : TransportFault} :
      Picks s now (.error fault)
        { ((s.note now (.answered (.error fault))).conclude now .error).fire now .failed with
          phase := .closing (.internalError fault) }
  /-- It holds nothing. -/
  | empty {found : SearchResponse} (nothing : found.latestChange? = none) :
      Picks s now (.ok found)
        (((s.note now (.answered (.ok found))).conclude now .empty).pause now)
  /-- It holds nothing later than the watermark. -/
  | skipped {found : SearchResponse} {next : ResourceVersion}
      (latest : found.latestChange? = some next) (stale : next.isAfter s.watermark = false) :
      Picks s now (.ok found)
        (((s.note now (.answered (.ok found))).conclude now .skipped).pause now)
  /-- Its batch is to be handed over. -/
  | accepted {found : SearchResponse} {next : ResourceVersion}
      (latest : found.latestChange? = some next) (fresh : next.isAfter s.watermark = true) :
      Picks s now (.ok found)
        { s.note now (.answered (.ok found)) with
          phase := .delivering (s.plan.batch s.watermark found) none next }

theorem picks_pickUp (s : Session) (now : Nat)
    (response : Except TransportFault SearchResponse) :
    Picks s now response (s.pickUp now response) := by
  cases response with
  | error fault => exact .failed
  | ok found =>
      rw [pickUp]
      cases latest : found.latestChange? with
      | none =>
          simp only
          exact .empty latest
      | some next =>
          simp only
          split
          · rename_i fresh
            exact .accepted latest fresh
          · rename_i stale
            exact .skipped latest (eq_false_of_ne_true stale)

/-- An accepted answer, with its batch. -/
theorem pickUp_accepted (s : Session) (now : Nat) {found : SearchResponse}
    {next : ResourceVersion} (latest : found.latestChange? = some next)
    (fresh : next.isAfter s.watermark = true) :
    s.pickUp now (.ok found) =
      { s.note now (.answered (.ok found)) with
        phase := .delivering (s.plan.batch s.watermark found) none next } := by
  have picks := picks_pickUp s now (.ok found)
  generalize s.pickUp now (.ok found) = t at picks
  cases picks with
  | empty nothing =>
      rw [latest] at nothing
      cases nothing
  | skipped latest' stale =>
      rw [latest] at latest'
      cases latest'
      rw [fresh] at stale
      cases stale
  | accepted latest' =>
      rw [latest] at latest'
      cases latest'
      rfl

/-- Everything that an answer does to a session. -/
inductive Hears (s : Session) (now : Nat) :
    Except TransportFault SearchResponse → Session → Prop where
  /-- Nobody waits for it. -/
  | unasked {response : Except TransportFault SearchResponse} (phase : s.phase ≠ .searching) :
      Hears s now response s
  /-- It finds the session stopped. -/
  | late {response : Except TransportFault SearchResponse} (phase : s.phase = .searching)
      (stopped : s.signal.isStopped = true) : Hears s now response (s.leave now)
  /-- It is looked at. -/
  | picked {response : Except TransportFault SearchResponse} {t : Session}
      (phase : s.phase = .searching) (running : s.signal.isStopped = false)
      (picks : Picks s now response t) : Hears s now response t

theorem hears_answer (s : Session) (now : Nat)
    (response : Except TransportFault SearchResponse) :
    Hears s now response (s.answer now response) := by
  rw [answer]
  split
  · rename_i phase
    exact .unasked phase
  · rename_i phase
    have searching : s.phase = .searching := by simpa using phase
    split
    · rename_i stopped
      exact .late searching stopped
    · rename_i stopped
      exact .picked searching (by simpa using stopped) (picks_pickUp s now response)

/-- A session that is not stopped looks at the answer to its search. -/
theorem answer_of_running {s : Session} (phase : s.phase = .searching)
    (running : s.signal.isStopped = false) (now : Nat)
    (response : Except TransportFault SearchResponse) :
    s.answer now response = s.pickUp now response := by
  rw [answer, if_neg (by simp [phase]), if_neg (by simp [running])]

/-- A session that is not stopped begins a search when its pause is over. -/
theorem follow?_ask {s : Session} {now wake : Nat} (running : s.signal.isStopped = false)
    (phase : s.phase = .pausing wake) (due : wake ≤ now) :
    s.follow? (.proceed now) =
      some ({ s with phase := .searching }.note now (.asked s.watermark)) := by
  simp only [follow?, proceed?, phase, running, due, Bool.false_eq_true, if_false, if_true,
    Option.map_some]
  rfl

theorem follow?_accepted (s : Session) (now : Nat) {found : SearchResponse}
    {next : ResourceVersion} {batch : List Bug} (phase : s.phase = .searching)
    (running : s.signal.isStopped = false)
    (latest : found.latestChange? = some next) (fresh : next.isAfter s.watermark = true)
    (hbatch : s.plan.batch s.watermark found = batch) :
    s.follow? (.answer now (.ok found)) =
      some { s.note now (.answered (.ok found)) with phase := .delivering batch none next } := by
  subst hbatch
  rw [follow?, answer_of_running phase running, pickUp_accepted s now latest fresh]

/-! ## Taking -/

/-- A consumer takes the event that has waited longest. -/
theorem queue_of_take {s t : Session} {now : Nat} {event : WatchEvent}
    (taken : s.take? now = some (event, t)) :
    s.queue = event :: t.queue ∧ t = { s with queue := t.queue }.note now (.taken event) := by
  simp only [take?] at taken
  split at taken
  · cases taken
  · rename_i queued
    cases taken
    exact ⟨queued, rfl⟩

theorem queue_of_untaken {s : Session} {now : Nat} (untaken : s.take? now = none) :
    s.queue = [] := by
  simp only [take?] at untaken
  split at untaken
  · assumption
  · cases untaken

/-! ## The plan -/

@[simp] theorem plan_fire (s : Session) (now : Nat) (reason : StopReason) :
    (s.fire now reason).plan = s.plan := by
  rcases s.fire_cases now reason with ⟨_, same⟩ | ⟨_, fired⟩
  · rw [same]
  · rw [fired]
    rfl

@[simp] theorem plan_leave (s : Session) (now : Nat) : (s.leave now).plan = s.plan := by
  rcases s.leave_cases now with closing | ended
  · rw [closing]
    rfl
  · rw [ended]
    rfl

theorem Move.plan {s t : Session} {now : Nat} {args : Option SearchArgs}
    (move : Move s now t args) : t.plan = s.plan := by
  cases move with
  | expire => exact s.plan_fire now .expired
  | leave => exact s.plan_leave now
  | ask => rfl
  | conclude => rfl
  | deliver => rfl
  | abandon => exact s.plan_fire now .finished
  | report => rfl
  | vanish => rfl

theorem Picks.plan {s t : Session} {now : Nat} {response : Except TransportFault SearchResponse}
    (picks : Picks s now response t) : t.plan = s.plan := by
  cases picks with
  | failed => exact plan_fire _ now .failed
  | empty | skipped | accepted => rfl

theorem Hears.plan {s t : Session} {now : Nat} {response : Except TransportFault SearchResponse}
    (hears : Hears s now response t) : t.plan = s.plan := by
  cases hears with
  | unasked => rfl
  | late => exact s.plan_leave now
  | picked _ _ picks => exact picks.plan

theorem plan_follow {s t : Session} {cue : Cue} (h : s.follow? cue = some t) : t.plan = s.plan := by
  cases cue with
  | expire now => exact (move_of_expire h).plan
  | proceed now =>
      obtain ⟨⟨u, args⟩, move, same⟩ := Option.map_eq_some_iff.mp h
      cases same
      exact (move_of_proceed move).plan
  | answer now response =>
      cases h
      exact (hears_answer s now response).plan
  | take now =>
      obtain ⟨⟨event, u⟩, taken, same⟩ := Option.map_eq_some_iff.mp h
      cases same
      simp only [take?] at taken
      split at taken <;> cases taken
      rfl
  | stop now =>
      cases h
      exact s.plan_fire now .requested
  | close =>
      cases h
      rfl
  | drop now =>
      cases h
      exact plan_fire _ now .requested

/-- A session keeps its plan. -/
theorem plan_of_run {s t : Session} {cues : List Cue} (run : s.run? cues = some t) :
    t.plan = s.plan :=
  run?_preserves (P := fun t => t.plan = s.plan) (fun h same => (plan_follow h).trans same) run rfl

/-! ## The signal and the phase -/

@[simp] theorem phase_fire (s : Session) (now : Nat) (reason : StopReason) :
    (s.fire now reason).phase = s.phase := by
  rcases s.fire_cases now reason with ⟨_, same⟩ | ⟨_, fired⟩
  · rw [same]
  · rw [fired]
    rfl

/-! ## The consumer -/

@[simp] theorem attached_fire (s : Session) (now : Nat) (reason : StopReason) :
    (s.fire now reason).attached = s.attached := by
  rcases s.fire_cases now reason with ⟨_, same⟩ | ⟨_, fired⟩
  · rw [same]
  · rw [fired]
    rfl

@[simp] theorem attached_leave (s : Session) (now : Nat) :
    (s.leave now).attached = s.attached := by
  rcases s.leave_cases now with closing | ended
  · rw [closing]
    rfl
  · rw [ended]
    rfl

theorem Move.attached {s t : Session} {now : Nat} {args : Option SearchArgs}
    (move : Move s now t args) : t.attached = s.attached := by
  cases move with
  | expire => exact s.attached_fire now .expired
  | leave => exact s.attached_leave now
  | abandon => exact s.attached_fire now .finished
  | ask | conclude | deliver | report | vanish => rfl

theorem Picks.attached {s t : Session} {now : Nat}
    {response : Except TransportFault SearchResponse} (picks : Picks s now response t) :
    t.attached = s.attached := by
  cases picks with
  | failed => exact attached_fire _ now .failed
  | empty | skipped | accepted => rfl

theorem Hears.attached {s t : Session} {now : Nat}
    {response : Except TransportFault SearchResponse} (hears : Hears s now response t) :
    t.attached = s.attached := by
  cases hears with
  | unasked => rfl
  | late => exact s.attached_leave now
  | picked _ _ picks => exact picks.attached

/-- A consumer that has left does not come back. -/
theorem attached_of_follow {s t : Session} {cue : Cue} (h : s.follow? cue = some t)
    (attached : t.attached = true) : s.attached = true := by
  cases cue with
  | expire now => rwa [(move_of_expire h).attached] at attached
  | proceed now =>
      obtain ⟨⟨u, args⟩, move, rfl⟩ := Option.map_eq_some_iff.mp h
      rwa [(move_of_proceed move).attached] at attached
  | answer now response =>
      cases h
      rwa [(hears_answer s now response).attached] at attached
  | take now =>
      obtain ⟨⟨event, u⟩, taken, rfl⟩ := Option.map_eq_some_iff.mp h
      rw [(queue_of_take taken).2] at attached
      exact attached
  | stop now =>
      cases h
      rwa [stop, attached_fire] at attached
  | close =>
      cases h
      cases attached
  | drop now =>
      cases h
      rw [drop, stop, attached_fire] at attached
      cases attached

/-! ## Parts of runs -/

theorem run?_cons {s t : Session} {cue : Cue} (first : s.follow? cue = some t) (cues : List Cue) :
    s.run? (cue :: cues) = t.run? cues := by
  rw [run?, first, Option.bind_some]

theorem run?_append {s t : Session} {first : List Cue} (h : s.run? first = some t)
    (rest : List Cue) : s.run? (first ++ rest) = t.run? rest := by
  induction first generalizing s with
  | nil =>
      cases h
      rfl
  | cons cue first ih =>
      obtain ⟨u, follows, h⟩ := Option.bind_eq_some_iff.mp h
      rw [List.cons_append, run?_cons follows, ih h]

/-- A run in which an answer is accepted, with its batch. -/
theorem run?_accepted {s u : Session} {first : List Cue} (h : s.run? first = some u) (now : Nat)
    {found : SearchResponse} {next : ResourceVersion} {batch : List Bug}
    (phase : u.phase = .searching) (running : u.signal.isStopped = false)
    (latest : found.latestChange? = some next) (fresh : next.isAfter u.watermark = true)
    (hbatch : u.plan.batch u.watermark found = batch) (rest : List Cue) :
    s.run? (first ++ .answer now (.ok found) :: rest) =
      run? { u.note now (.answered (.ok found)) with phase := .delivering batch none next } rest :=
  (run?_append h _).trans
    (run?_cons (follow?_accepted u now phase running latest fresh hbatch) rest)

end Session

/-! ## Sample bugs -/

theorem mod_secondsPerDay_lt (second : Nat) : second % secondsPerDay < secondsPerDay :=
  Nat.mod_lt second (by decide)

theorem Instant.not_leap_of_zero (second : Nat) (h : nanosPerSecond ≤ 0) : second % 60 = 59 :=
  absurd h (by decide)

/-- A whole second of the first day of the epoch. -/
def Instant.onFirstDay (second : Nat) : Instant where
  day := 0
  second := second % secondsPerDay
  nano := 0
  day_ge := Instant.epoch.day_ge
  day_le := Instant.epoch.day_le
  second_lt := mod_secondsPerDay_lt second
  nano_lt := Instant.epoch.nano_lt
  leap_at_minute_end := not_leap_of_zero (second % secondsPerDay)

/-- A bug of which little is known but when it was created and changed. -/
def BugInfo.sample (id : UInt64) (created changed : Nat) : BugInfo where
  id := id
  summary := ""
  status := ""
  resolution := ""
  product := ""
  component := []
  severity := ""
  priority := ""
  assignedTo := ""
  created := .onFirstDay created
  lastChange := .onFirstDay changed

/-- A plan that watches all bugs from a second on, with room for one event. -/
def WatchPlan.sample (start : Nat) : WatchPlan where
  args := {}
  includes := fun _ => true
  interval := 1000
  lifetime := 60000
  capacity := 1
  start := ⟨.onFirstDay start⟩

/-- A session that was opened at the epoch, during its first search. -/
def Session.firstSearch (plan : WatchPlan) (now : Nat) : Session :=
  { start 0 .epoch plan with
    phase := .searching
    log := [(now, .asked plan.start)] }

/-- A session begins its first search once its first pause is over. -/
theorem Session.follow?_firstSearch {plan : WatchPlan} {now : Nat}
    (due : (start 0 .epoch plan).firstWake ≤ now) :
    (start 0 .epoch plan).follow? (.proceed now) = some (firstSearch plan now) :=
  follow?_ask rfl rfl due

theorem Session.firstSearch_reached :
    (start 0 .epoch (.sample 6)).follow? (.proceed 7000) = some (firstSearch (.sample 6) 7000) :=
  follow?_firstSearch (by decide)

theorem Session.run?_firstSearch :
    (start 0 .epoch (.sample 6)).run? [.proceed 7000] = some (firstSearch (.sample 6) 7000) :=
  run?_cons firstSearch_reached []

end BugFeed
