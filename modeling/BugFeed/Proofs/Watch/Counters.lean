import BugFeed.Proofs.Watch.Answers

/-!
# What a session counts

A session counts when it is opened, when it hands an event over, when a poll ends and when it leaves
its work at the end of its lifetime. Each of these happens at one point of its work, but the work
can be broken off before every one of them: a search is given up, a batch is cut, the consumer goes
away. So what has been counted is compared with what the session has noted (`Counted`): the events
that it handed over and the outcomes of its polls, each kind with its own counter. Every run keeps
this (`counted_of_run`).
-/

namespace BugFeed

set_option autoImplicit false

/-! ## Growth of counters -/

namespace Ledger

/-- By how much some additions raise a counter. -/
def growth (l : Ledger) (c : Counter) : Nat :=
  (l.filter fun i => i.counter = c).foldr (fun i n => i.amount + n) 0

theorem foldr_amount (l : Ledger) (n : Nat) :
    l.foldr (fun i n => i.amount + n) n = l.foldr (fun i n => i.amount + n) 0 + n := by
  induction l with
  | nil => simp
  | cons i l ih => simp only [List.foldr_cons, ih, Nat.add_assoc]

theorem growth_append (l before : Ledger) (c : Counter) :
    growth (l ++ before) c = l.growth c + before.growth c := by
  rw [growth, List.filter_append, List.foldr_append, foldr_amount]
  rfl

/-- The value of a counter is its growth from zero on, in 64 bits. -/
theorem total_eq_growth_mod (l : Ledger) (c : Counter) :
    l.total c = l.growth c % UInt64.size := rfl

/-- A counter goes on from what it was. -/
theorem total_append (l before : Ledger) (c : Counter) :
    total (l ++ before) c = (before.total c + l.growth c) % UInt64.size := by
  rw [total_eq_growth_mod, total_eq_growth_mod, growth_append, Nat.mod_add_mod, Nat.add_comm]

theorem growth_record (l : Ledger) (o : Occurrence) (c : Counter) :
    (l.record o).growth c = l.growth c + if o.counter = c then 1 else 0 := by
  by_cases same : o.counter = c
  · simp [growth, record, same, Nat.add_comm]
  · simp [growth, record, same]

end Ledger

/-- Each occurrence has a counter of its own. -/
theorem Occurrence.counter_injective {a b : Occurrence} (same : a.counter = b.counter) : a = b := by
  cases a with
  | sessionStarted | sessionExpired => cases b <;> simp_all [counter]
  | polled o =>
      cases b with
      | polled o' => cases o <;> cases o' <;> simp_all [counter, PollOutcome.word]
      | sessionStarted | sessionExpired | delivered | cycled => simp [counter] at same
  | delivered k =>
      cases b with
      | delivered k' => cases k <;> cases k' <;> simp_all [counter, EventKind.word]
      | sessionStarted | sessionExpired | polled | cycled => simp [counter] at same
  | cycled c =>
      cases b with
      | cycled c' => cases c <;> cases c' <;> simp_all [counter, Cycle.word]
      | sessionStarted | sessionExpired | polled | delivered => simp [counter] at same

theorem Poll.reads_outcome : Poll.Reads Poll.outcome := ⟨fun _ => rfl, fun _ _ => rfl⟩

namespace Session

variable {s t : Session} {now : Nat}

/-! ## What has been counted -/

/-- The outcomes of the polls of the session that came to their end, first one first. -/
def outcomes (s : Session) : List PollOutcome := Poll.gather Poll.outcome s.polls

/-- How often a session has counted an occurrence. -/
def tally (s : Session) (o : Occurrence) : Nat := s.ledger.growth o.counter

theorem tally_count (s : Session) (o o' : Occurrence) :
    (s.count o).tally o' = s.tally o' + if o = o' then 1 else 0 := by
  rw [tally, count, Ledger.growth_record]
  by_cases same : o = o'
  · simp [same, tally]
  · have other : o.counter ≠ o'.counter := fun h => same (Occurrence.counter_injective h)
    simp [same, other, tally]

@[simp] theorem tally_fire (s : Session) (now : Nat) (reason : StopReason) (o : Occurrence) :
    (s.fire now reason).tally o = s.tally o := by
  rcases s.fire_cases now reason with ⟨_, same⟩ | ⟨_, fired⟩
  · rw [same]
  · rw [fired]
    rfl

theorem tally_push (s : Session) (now : Nat) (event : WatchEvent) (o : Occurrence) :
    (s.push now event).tally o = s.tally o + if .delivered event.kind = o then 1 else 0 :=
  tally_count _ (.delivered event.kind) o

theorem tally_conclude (s : Session) (now : Nat) (outcome : PollOutcome) (o : Occurrence) :
    (s.conclude now outcome).tally o = s.tally o + if .polled outcome = o then 1 else 0 :=
  tally_count s (.polled outcome) o

theorem tally_leave (s : Session) (now : Nat) (o : Occurrence) :
    (s.leave now).tally o =
      s.tally o + if s.signal.reason = some .expired ∧ .sessionExpired = o then 1 else 0 := by
  rw [leave]
  by_cases expired : s.signal.reason = some .expired
  · rw [if_pos expired]
    refine (tally_count _ .sessionExpired o).trans ?_
    change s.tally o + _ = _
    simp [expired]
  · simp [expired, tally, finish, note]

/-- Whether a session has left its work because its lifetime had ended. -/
def hasExpired (s : Session) : Bool :=
  match s.phase with
  | .closing _ | .ended => s.signal.reason = some .expired
  | _ => false

/-- A session has counted that it was opened, the events that it handed over, the outcomes of its
polls, and that it has left at the end of its lifetime unless its consumer was gone. -/
structure Counted (s : Session) : Prop where
  opened : s.tally .sessionStarted = 1
  cycles : ∀ cycle, s.tally (.cycled cycle) = 0
  events : ∀ kind, s.tally (.delivered kind) = (s.delivered.map WatchEvent.kind).count kind
  polls : ∀ outcome, s.tally (.polled outcome) = s.outcomes.count outcome
  expired : s.attached = true → s.tally .sessionExpired = s.hasExpired.toNat

theorem tally_start (now : Nat) (present : Instant) (plan : WatchPlan) (o : Occurrence) :
    (start now present plan).tally o = if .sessionStarted = o then 1 else 0 := by
  have opened := tally_count { start now present plan with ledger := [] } .sessionStarted o
  exact opened.trans (Nat.zero_add _)

theorem counted_start (now : Nat) (present : Instant) (plan : WatchPlan) :
    (start now present plan).Counted where
  opened := by simp [tally_start]
  cycles := by simp [tally_start]
  events kind := by
    rw [tally_start]
    rfl
  polls outcome := by
    rw [tally_start]
    rfl
  expired _ := by
    rw [tally_start]
    rfl

/-- A session that works has not left at the end of its lifetime. -/
theorem hasExpired_of_leaves (point : Leaves s.phase) : s.hasExpired = false := by
  rw [hasExpired]
  generalize s.phase = phase at point
  cases point <;> rfl

/-- The signal of a session that has left fired before that. -/
theorem Told.hasExpired_fire (told : s.Told) (now : Nat) (reason : StopReason) :
    (s.fire now reason).hasExpired = s.hasExpired := by
  rcases s.fire_cases now reason with ⟨_, same⟩ | ⟨running, fired⟩
  · rw [same]
  · rw [fired, hasExpired, hasExpired]
    rw [Told, running] at told
    change (match s.phase with | .closing _ | .ended => _ | _ => false) = _
    cases phase : s.phase with
    | pausing | searching | delivering => rfl
    | closing | ended =>
        rw [phase] at told
        cases told.1

theorem hasExpired_leave (s : Session) (now : Nat) :
    (s.leave now).hasExpired = decide (s.signal.reason = some .expired) := by
  rw [leave]
  split <;> rfl

/-- The outcome of the poll under way joins those before it. -/
theorem outcomes_conclude {p : Poll} {earlier : List Poll} (polls : s.polls = p :: earlier)
    (open_ : p.outcome = none) (now : Nat) (outcome : PollOutcome) :
    (s.conclude now outcome).outcomes = s.outcomes ++ [outcome] := by
  change Poll.gather Poll.outcome (Poll.read s.polls (.polled outcome)) =
    Poll.gather Poll.outcome s.polls ++ _
  rw [polls, Poll.read, List.modifyHead_cons, Poll.gather_cons, Poll.gather_cons, open_]
  simp

theorem outcomes_answered (s : Session) (now : Nat)
    (response : Except TransportFault SearchResponse) :
    (s.note now (.answered response)).outcomes = s.outcomes :=
  Poll.gather_modifyHead (fun _ => by rfl) s.polls

namespace Counted

variable (counted : s.Counted)

include counted

/-- What neither counts nor notes an event or an outcome leaves the balance as it is. -/
theorem of_same (tally : ∀ o, t.tally o = s.tally o) (delivered : t.delivered = s.delivered)
    (outcomes : t.outcomes = s.outcomes)
    (expired : t.attached = true → s.attached = true ∧ t.hasExpired = s.hasExpired) :
    t.Counted where
  opened := (tally _).trans counted.opened
  cycles cycle := (tally _).trans (counted.cycles cycle)
  events kind := by rw [tally, delivered, counted.events]
  polls outcome := by rw [tally, outcomes, counted.polls]
  expired attached := by
    obtain ⟨before, same⟩ := expired attached
    rw [tally, same, counted.expired before]

/-- A session that goes on to something else has left as before. -/
theorem enters (phase : Phase)
    (same : ({ s with phase := phase } : Session).hasExpired = s.hasExpired) :
    ({ s with phase := phase } : Session).Counted :=
  counted.of_same (fun _ => rfl) rfl rfl fun attached => ⟨attached, same⟩

theorem note {n : Note} (handed : n.delivered? = none) (unanswered : n.answered? = none)
    (unpolled : n.polled? = none) (now : Nat) : (s.note now n).Counted := by
  refine counted.of_same (fun _ => rfl) ?_
    (gather_note Poll.reads_outcome unanswered unpolled s now) fun attached => ⟨attached, rfl⟩
  rw [delivered_note, handed]
  exact List.append_nil _

theorem fire {reason : StopReason}
    (same : (s.fire now reason).hasExpired = s.hasExpired) :
    (s.fire now reason).Counted := by
  refine counted.of_same (s.tally_fire now reason) (Quiet.fire s now reason).delivered
    (gather_fire Poll.reads_outcome s now reason) ?_
  rw [attached_fire]
  exact fun attached => ⟨attached, same⟩

theorem leave (point : Leaves s.phase) (now : Nat) : (s.leave now).Counted where
  opened := by simp [tally_leave, counted.opened]
  cycles cycle := by simp [tally_leave, counted.cycles]
  events kind := by
    rw [(Quiet.leave point.ne_ended).delivered, ← counted.events]
    simp [tally_leave]
  polls outcome := by
    have same : (s.leave now).outcomes = s.outcomes := gather_leave Poll.reads_outcome s now
    rw [same, ← counted.polls]
    simp [tally_leave]
  expired attached := by
    have before := counted.expired (by rwa [attached_leave] at attached)
    rw [tally_leave, before, hasExpired_of_leaves point, hasExpired_leave]
    by_cases expired : s.signal.reason = some .expired <;> simp [expired]

theorem conclude {p : Poll} {earlier : List Poll} (polls : s.polls = p :: earlier)
    (open_ : p.outcome = none) (now : Nat) (outcome : PollOutcome) :
    (s.conclude now outcome).Counted where
  opened := by simp [tally_conclude, counted.opened]
  cycles cycle := by simp [tally_conclude, counted.cycles]
  events kind := by
    rw [Quiet.conclude.delivered, ← counted.events]
    simp [tally_conclude]
  polls other := by
    rw [outcomes_conclude polls open_, tally_conclude, counted.polls, List.count_append,
      List.count_singleton]
    simp
  expired attached := by
    have same : (s.conclude now outcome).hasExpired = s.hasExpired := rfl
    simpa [tally_conclude, same] using counted.expired attached

theorem push (now : Nat) (event : WatchEvent) : (s.push now event).Counted where
  opened := by simp [tally_push, counted.opened]
  cycles cycle := by simp [tally_push, counted.cycles]
  events kind := by
    rw [delivered_push, tally_push, counted.events, List.map_append, List.count_append]
    simp [List.count_singleton]
  polls outcome := by
    have same : (s.push now event).outcomes = s.outcomes :=
      gather_note Poll.reads_outcome rfl rfl _ now
    rw [same, ← counted.polls]
    simp [tally_push]
  expired attached := by
    have same : (s.push now event).hasExpired = s.hasExpired := rfl
    simpa [tally_push, same] using counted.expired attached

theorem move {args : Option SearchArgs} (told : s.Told) (move : Move s now t args) :
    t.Counted := by
  cases move with
  | expire => exact counted.fire (told.hasExpired_fire now .expired)
  | leave _ point => exact counted.leave point now
  | ask _ phase =>
      have working : s.hasExpired = false := hasExpired_of_leaves (phase ▸ .pausing _)
      exact (counted.enters .searching working.symm).note rfl rfl rfl now
  | @conclude last next phase =>
      have working : s.hasExpired = false := by rw [hasExpired, phase]
      rw [Told, phase] at told
      obtain ⟨earlier, found, done, polls, _⟩ := told
      have moved : ({ s with watermark := next } : Session).Counted :=
        counted.of_same (fun _ => rfl) rfl rfl fun attached => ⟨attached, rfl⟩
      exact (moved.conclude polls rfl now .ok).enters _ working.symm
  | deliver phase =>
      have working : s.hasExpired = false := by rw [hasExpired, phase]
      exact (counted.enters (.delivering _ _ _) working.symm).push now _
  | abandon phase detached =>
      have given := counted.fire (told.hasExpired_fire now .finished)
      refine given.of_same (fun _ => rfl) ?_ (gather_note Poll.reads_outcome rfl rfl _ now) ?_
      · exact (delivered_note _ now .ended).trans (List.append_nil _)
      · intro attached
        rw [(s.attached_fire now .finished).symm] at detached
        cases attached.symm.trans detached
  | @report status phase =>
      have closing : (s.push now (.error status)).phase = .closing status := phase
      have same : ({ s.push now (.error status) with phase := .ended } : Session).hasExpired =
          (s.push now (.error status)).hasExpired := by rw [hasExpired, hasExpired, closing]
      exact ((counted.push now _).enters .ended same).note rfl rfl rfl now
  | vanish phase =>
      have same : ({ s with phase := .ended } : Session).hasExpired = s.hasExpired := by
        rw [hasExpired, hasExpired, phase]
      exact (counted.enters .ended same).note rfl rfl rfl now

/-- An answer that is looked at is noted while the session searches. -/
theorem answered (response : Except TransportFault SearchResponse) (now : Nat) :
    (s.note now (.answered response)).Counted :=
  counted.of_same (fun _ => rfl) ((delivered_note s now _).trans (List.append_nil _))
    (outcomes_answered s now response) fun attached => ⟨attached, rfl⟩

theorem picks {response : Except TransportFault SearchResponse} (told : s.Told)
    (phase : s.phase = .searching) (running : s.signal.isStopped = false)
    (picks : Picks s now response t) : t.Counted := by
  have polls : ∃ p earlier, (s.note now (.answered response)).polls = p :: earlier ∧
      p.outcome = none := by
    rw [Told, phase] at told
    obtain ⟨earlier, polls, _⟩ := told
    refine ⟨{ cutoff := s.watermark, answer := some response }, earlier, ?_, rfl⟩
    change Poll.read s.polls (.answered response) = _
    rw [polls]
    rfl
  obtain ⟨p, earlier, polls, open_⟩ := polls
  have working : s.hasExpired = false := hasExpired_of_leaves (phase ▸ .searching)
  cases picks with
  | @failed fault =>
      have concluded := (counted.answered (.error fault) now).conclude polls open_ now .error
      let u := (s.note now (.answered (.error fault))).conclude now .error
      have searching : u.phase = .searching := phase
      have fires : (u.fire now .failed).hasExpired = false ∧
          (u.fire now .failed).signal.reason = some .failed := by
        rcases u.fire_cases now .failed with ⟨stopped, _⟩ | ⟨_, fired⟩
        · cases running.symm.trans stopped
        · rw [fired]
          exact ⟨hasExpired_of_leaves (searching ▸ .searching), rfl⟩
      have before : u.hasExpired = false := hasExpired_of_leaves (searching ▸ .searching)
      refine (concluded.fire (fires.1.trans before.symm)).enters _ ?_
      rw [fires.1, hasExpired]
      exact decide_eq_false fun expired => by cases fires.2.symm.trans expired
  | empty | skipped =>
      exact ((counted.answered _ now).conclude polls open_ now _).enters _ working.symm
  | accepted => exact (counted.answered _ now).enters _ working.symm

theorem hears {response : Except TransportFault SearchResponse} (told : s.Told)
    (hears : Hears s now response t) : t.Counted := by
  cases hears with
  | unasked => exact counted
  | late phase => exact counted.leave (phase ▸ .searching) now
  | picked phase running picks => exact counted.picks told phase running picks

theorem take {event : WatchEvent} (taken : s.take? now = some (event, t)) : t.Counted := by
  rw [(queue_of_take taken).2]
  have emptied : ({ s with queue := t.queue } : Session).Counted :=
    counted.of_same (fun _ => rfl) rfl rfl fun attached => ⟨attached, rfl⟩
  exact emptied.note rfl rfl rfl now

theorem detach (queue : List WatchEvent) :
    ({ s with attached := false, queue := queue } : Session).Counted :=
  counted.of_same (fun _ => rfl) rfl rfl fun attached => by cases attached

end Counted

theorem Counted.follow {cue : Cue} (h : s.follow? cue = some t) (told : s.Told)
    (counted : s.Counted) : t.Counted := by
  cases cue with
  | expire now => exact counted.move told (move_of_expire h)
  | proceed now =>
      obtain ⟨⟨u, args⟩, move, rfl⟩ := Option.map_eq_some_iff.mp h
      exact counted.move told (move_of_proceed move)
  | answer now response =>
      cases h
      exact counted.hears told (hears_answer s now response)
  | take now =>
      obtain ⟨⟨event, u⟩, taken, rfl⟩ := Option.map_eq_some_iff.mp h
      exact counted.take taken
  | stop now =>
      cases h
      exact counted.fire (told.hasExpired_fire now .requested)
  | close =>
      cases h
      exact counted.detach s.queue
  | drop now =>
      cases h
      have dropped : ({ s.close with queue := [] } : Session).Told := told.close
      exact (counted.detach []).fire (dropped.hasExpired_fire now .requested)

/-- **What a session has counted is what it has noted, in every run.** -/
theorem counted_of_run {present : Instant} {plan : WatchPlan} {cues : List Cue}
    (run : (start now present plan).run? cues = some s) : s.Counted :=
  (run?_preserves (P := fun s => s.Told ∧ s.Counted)
    (fun h both => ⟨both.1.follow h, both.2.follow h both.1⟩) run
    ⟨told_start now present plan, counted_start now present plan⟩).2

end Session

end BugFeed
