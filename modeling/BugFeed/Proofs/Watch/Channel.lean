import BugFeed.Proofs.Watch.Polls

/-!
# The traffic of a session

A session sends searches and hands events over, which wait in its queue until the consumer takes
them. All but four things that happen to it leave this traffic alone (`Traffic`,
`traffic_of_follow`).

* The searches of a run are those of its polls (`searches_of_run`).
* While the consumer is there, what it took and what waits for it is what was handed over, in this
  order. What was handed over are the events of the polls, one poll after the other, and after them
  at most the fault that ended the session (`Passes`, `passes_of_run`).
* A session and its consumer are never in each other's way: as long as events are on their way,
  one of the two has a step that brings them on, and there are only so many such steps before the
  next answer (`exists_onward`, `lt_backlog_of_onward`).
-/

namespace BugFeed

set_option autoImplicit false

/-! ## Searches and events -/

/-- The cutoff of the search that was begun. -/
def Note.asked? : Note → Option ResourceVersion
  | .asked cutoff => some cutoff
  | _ => none

/-- The event that was handed over. -/
def Note.delivered? : Note → Option WatchEvent
  | .delivered event => some event
  | _ => none

/-- The event that the consumer took. -/
def Note.taken? : Note → Option WatchEvent
  | .taken event => some event
  | _ => none

/-- The events about bugs that some polls handed over, where the newest poll comes first. -/
def Poll.changes (polls : List Poll) : List WatchEvent := polls.reverse.flatMap Poll.events

namespace Poll

@[simp] theorem changes_cons (p : Poll) (polls : List Poll) :
    changes (p :: polls) = changes polls ++ p.events := by
  simp only [changes, List.reverse_cons, List.flatMap_append, List.flatMap_singleton]

/-- What was handed over depends on the events of the polls alone. -/
theorem changes_congr {polls polls' : List Poll} (same : polls.map events = polls'.map events) :
    changes polls = changes polls' := by
  rw [changes, changes, List.flatMap_def, List.flatMap_def, List.map_reverse, List.map_reverse,
    same]

theorem map_modifyHead {α : Type} {f : Poll → Poll} {g : Poll → α} (keeps : ∀ p, g (f p) = g p)
    (polls : List Poll) : (polls.modifyHead f).map g = polls.map g := by
  cases polls with
  | nil => rfl
  | cons p polls => rw [List.modifyHead_cons, List.map_cons, List.map_cons, keeps]

/-- Only the note of a search adds a cutoff. -/
theorem map_cutoff_read (n : Note) (polls : List Poll) :
    (read polls n).map cutoff = n.asked?.toList ++ polls.map cutoff := by
  cases n with
  | asked cutoff => rfl
  | answered response => exact map_modifyHead (fun _ => by rfl) polls
  | delivered event =>
      cases event with
      | error status => rfl
      | added b => exact map_modifyHead (fun _ => by rfl) polls
      | modified b => exact map_modifyHead (fun _ => by rfl) polls
  | polled outcome => exact map_modifyHead (fun _ => by rfl) polls
  | fired reason => rfl
  | taken event => rfl
  | ended => rfl

/-- Only the notes of a search and of an event touch what the polls handed over. -/
theorem map_events_read {n : Note} (asked : n.asked? = none) (handed : n.delivered? = none)
    (polls : List Poll) : (read polls n).map events = polls.map events := by
  cases n with
  | asked cutoff => cases asked
  | answered response => exact map_modifyHead (fun _ => by rfl) polls
  | delivered event => cases handed
  | polled outcome => exact map_modifyHead (fun _ => by rfl) polls
  | fired reason => rfl
  | taken event => rfl
  | ended => rfl

/-- A search hands nothing over. -/
theorem changes_read_asked (cutoff : ResourceVersion) (polls : List Poll) :
    changes (read polls (.asked cutoff)) = changes polls :=
  (changes_cons _ polls).trans (List.append_nil _)

end Poll

namespace Session

/-- The events that the session handed over, first one first. -/
def delivered (s : Session) : List WatchEvent :=
  s.log.reverse.filterMap fun entry => entry.2.delivered?

/-- The events that the consumer took, first one first. -/
def received (s : Session) : List WatchEvent :=
  s.log.reverse.filterMap fun entry => entry.2.taken?

/-- The events about bugs that the polls of the session handed over, first one first. -/
def changes (s : Session) : List WatchEvent := Poll.changes s.polls

/-- The cutoffs of the polls of the session, first one first. -/
def cutoffs (s : Session) : List ResourceVersion := s.polls.reverse.map Poll.cutoff

variable (s : Session) (now : Nat)

@[simp] theorem cutoffs_note (n : Note) :
    (s.note now n).cutoffs = s.cutoffs ++ n.asked?.toList := by
  change (Poll.read s.polls n).reverse.map Poll.cutoff = _
  rw [List.map_reverse, Poll.map_cutoff_read, List.reverse_append, cutoffs, List.map_reverse]
  cases n <;> rfl

@[simp] theorem delivered_note (n : Note) :
    (s.note now n).delivered = s.delivered ++ n.delivered?.toList := by
  simp only [delivered, note, List.reverse_cons, List.filterMap_append]
  cases n <;> rfl

@[simp] theorem received_note (n : Note) :
    (s.note now n).received = s.received ++ n.taken?.toList := by
  simp only [received, note, List.reverse_cons, List.filterMap_append]
  cases n <;> rfl

theorem events_note {n : Note} (asked : n.asked? = none) (handed : n.delivered? = none) :
    (s.note now n).polls.map Poll.events = s.polls.map Poll.events :=
  Poll.map_events_read asked handed s.polls

@[simp] theorem cutoffs_push (event : WatchEvent) : (s.push now event).cutoffs = s.cutoffs :=
  (cutoffs_note _ now (.delivered event)).trans (List.append_nil _)

@[simp] theorem delivered_push (event : WatchEvent) :
    (s.push now event).delivered = s.delivered ++ [event] :=
  delivered_note _ now (.delivered event)

@[simp] theorem received_push (event : WatchEvent) :
    (s.push now event).received = s.received :=
  (received_note _ now (.delivered event)).trans (List.append_nil _)

@[simp] theorem phase_push (event : WatchEvent) : (s.push now event).phase = s.phase := rfl

/-- Whether the session hands the changes of an answer over. -/
def isDelivering (s : Session) : Bool :=
  match s.phase with
  | .delivering _ _ _ => true
  | _ => false

variable {s} in
theorem isDelivering_iff :
    s.isDelivering = true ↔ ∃ rest last next, s.phase = .delivering rest last next := by
  rw [isDelivering]
  cases s.phase <;> simp

/-! ## What leaves the traffic alone -/

/-- Neither a search nor an event passes between two states of a session. A consumer that left may
have thrown away what waited for it. -/
structure Quiet (s t : Session) : Prop where
  cutoffs : t.cutoffs = s.cutoffs
  events : t.polls.map Poll.events = s.polls.map Poll.events
  delivered : t.delivered = s.delivered
  received : t.received = s.received
  queue : t.queue = s.queue ∨ t.attached = false ∧ t.queue = []
  attached : t.attached = true → s.attached = true
  stopped : s.signal.isStopped = true → t.signal.isStopped = true
  ended : t.phase ≠ .ended → s.phase ≠ .ended

variable {s now}

theorem Quiet.queue_of_attached {t : Session} (quiet : Quiet s t) (attached : t.attached = true) :
    t.queue = s.queue := by
  rcases quiet.queue with same | ⟨detached, _⟩
  · exact same
  · rw [attached] at detached
    cases detached

theorem Quiet.changes {t : Session} (quiet : Quiet s t) : t.changes = s.changes :=
  Poll.changes_congr quiet.events

/-- A state that differs only in what no event touches. -/
theorem Quiet.of_log {t : Session} (log : t.log = s.log)
    (queue : t.queue = s.queue ∨ t.attached = false ∧ t.queue = [])
    (attached : t.attached = true → s.attached = true)
    (stopped : s.signal.isStopped = true → t.signal.isStopped = true)
    (ended : t.phase ≠ .ended → s.phase ≠ .ended) : Quiet s t where
  cutoffs := by rw [Session.cutoffs, Session.cutoffs, polls, polls, log]
  events := by rw [polls, polls, log]
  delivered := by rw [Session.delivered, Session.delivered, log]
  received := by rw [Session.received, Session.received, log]
  queue := queue
  attached := attached
  stopped := stopped
  ended := ended

theorem Quiet.refl (s : Session) : Quiet s s := .of_log rfl (.inl rfl) id id id

theorem Quiet.trans {t u : Session} (first : Quiet s t) (second : Quiet t u) : Quiet s u where
  cutoffs := second.cutoffs.trans first.cutoffs
  events := second.events.trans first.events
  delivered := second.delivered.trans first.delivered
  received := second.received.trans first.received
  queue := by
    rcases second.queue with same | thrown
    · rcases first.queue with before | ⟨detached, nothing⟩
      · exact .inl (same.trans before)
      · refine .inr ⟨eq_false_of_ne_true fun still => ?_, same.trans nothing⟩
        rw [second.attached still] at detached
        cases detached
    · exact .inr thrown
  attached := first.attached ∘ second.attached
  stopped := second.stopped ∘ first.stopped
  ended := first.ended ∘ second.ended

/-- A note about something else than a search or an event. -/
theorem Quiet.note {n : Note} (asked : n.asked? = none) (handed : n.delivered? = none)
    (taken : n.taken? = none) : Quiet s (s.note now n) where
  cutoffs := by rw [cutoffs_note, asked, Option.toList_none, List.append_nil]
  delivered := by rw [delivered_note, handed, Option.toList_none, List.append_nil]
  received := by rw [received_note, taken, Option.toList_none, List.append_nil]
  events := events_note s now asked handed
  queue := .inl rfl
  attached := id
  stopped := id
  ended := id

theorem Quiet.enters {t : Session} {phase : Phase} (quiet : Quiet s t) (open_ : s.phase ≠ .ended) :
    Quiet s { t with phase := phase } where
  cutoffs := quiet.cutoffs
  events := quiet.events
  delivered := quiet.delivered
  received := quiet.received
  queue := quiet.queue
  attached := quiet.attached
  stopped := quiet.stopped
  ended _ := open_

theorem Quiet.fire (s : Session) (now : Nat) (reason : StopReason) :
    Quiet s (s.fire now reason) := by
  rcases s.fire_cases now reason with ⟨_, same⟩ | ⟨_, fired⟩
  · rw [same]
    exact .refl s
  · rw [fired]
    have signalled : Quiet s { s with signal := ⟨some reason, true, rfl⟩ } :=
      .of_log rfl (.inl rfl) id (fun _ => rfl) id
    exact signalled.trans (.note rfl rfl rfl)

theorem Quiet.finish (open_ : s.phase ≠ .ended) : Quiet s (s.finish now) :=
  (Quiet.enters (.refl s) open_).trans (.note rfl rfl rfl)

theorem Quiet.abandon (open_ : s.phase ≠ .ended) :
    Quiet s ((s.fire now .finished).finish now) :=
  ((Quiet.fire s now .finished).enters open_).trans (.note rfl rfl rfl)

theorem Quiet.leave (open_ : s.phase ≠ .ended) : Quiet s (s.leave now) := by
  rcases s.leave_cases now with closing | ended
  · rw [closing]
    exact .of_log rfl (.inl rfl) id id fun _ => open_
  · rw [ended]
    exact .finish open_

theorem Quiet.conclude {outcome : PollOutcome} : Quiet s (s.conclude now outcome) :=
  (Quiet.of_log rfl (.inl rfl) id id id : Quiet s (s.count (.polled outcome))).trans
    (.note rfl rfl rfl)

/-! ## What passes -/

/-- The search that a session begins at a cue. -/
def begins? (s : Session) : Cue → Option SearchArgs
  | .proceed now => (s.proceed? now).bind Prod.snd
  | _ => none

/-- What a cue does to the traffic of a session, with the search that begins. -/
inductive Traffic (s : Session) : Session → Option SearchArgs → Prop where
  /-- Nothing passes. -/
  | quiet {t : Session} (quiet : Quiet s t) : Traffic s t none
  /-- A search begins. -/
  | ask {now wake : Nat} (running : s.signal.isStopped = false) (phase : s.phase = .pausing wake) :
      Traffic s ({ s with phase := .searching }.note now (.asked s.watermark))
        (some (s.plan.searchSince s.watermark))
  /-- A change is handed over. Once the session has been stopped, it is one of the second that was
  begun. -/
  | deliver {now : Nat} {b : Bug} {rest : List Bug} {last : Option Instant}
      {next : ResourceVersion} (phase : s.phase = .delivering (b :: rest) last next)
      (room : s.hasRoom = true) (attached : s.attached = true)
      (begun : s.signal.isStopped = true → last = some b.lastChange.truncate) :
      Traffic s ({ s with phase := .delivering rest (some b.lastChange.truncate) next }.push now
        (s.plan.eventOf b)) none
  /-- The fault that ends the session is handed over. -/
  | report {now : Nat} {status : Status} (phase : s.phase = .closing status)
      (attached : s.attached = true) :
      Traffic s ((s.push now (.error status)).finish now) none
  /-- The consumer takes an event. -/
  | take {now : Nat} {event : WatchEvent} {t : Session}
      (taken : s.take? now = some (event, t)) : Traffic s t none

theorem Leaves.ne_ended {phase : Phase} (point : Leaves phase) : phase ≠ .ended := by
  cases point <;> nofun

theorem Move.traffic {t : Session} {args : Option SearchArgs} (move : Move s now t args) :
    Traffic s t args := by
  cases move with
  | expire => exact .quiet (.fire s now .expired)
  | leave _ point => exact .quiet (.leave point.ne_ended)
  | ask running phase => exact .ask running phase
  | @conclude last next phase =>
      have open_ : s.phase ≠ .ended := by rw [phase]; nofun
      have moved : Quiet s { s with watermark := next } := .of_log rfl (.inl rfl) id id id
      exact .quiet ((moved.trans .conclude).enters open_)
  | deliver phase room attached begun => exact .deliver phase room attached begun
  | abandon phase => exact .quiet (.abandon (by rw [phase]; nofun))
  | report phase _ attached => exact .report phase attached
  | vanish phase =>
      have open_ : s.phase ≠ .ended := by rw [phase]; nofun
      exact .quiet (.finish open_)

/-- What a session does by itself gives its consumer nothing yet. -/
theorem Move.received {t : Session} {args : Option SearchArgs} (move : Move s now t args) :
    t.received = s.received := by
  cases move with
  | expire => exact (Quiet.fire s now .expired).received
  | leave _ point => exact (Quiet.leave point.ne_ended).received
  | ask => exact (received_note _ now (.asked s.watermark)).trans (List.append_nil _)
  | conclude => exact (received_note _ now (.polled .ok)).trans (List.append_nil _)
  | deliver => exact received_push _ now _
  | abandon =>
      have ended := received_note (s.fire now .finished) now .ended
      exact (ended.trans (List.append_nil _)).trans (Quiet.fire s now .finished).received
  | @report status =>
      have ended := received_note (s.push now (.error status)) now .ended
      exact (ended.trans (List.append_nil _)).trans (received_push s now (.error status))
  | vanish => exact (received_note _ now .ended).trans (List.append_nil _)

theorem Picks.quiet {t : Session} {response : Except TransportFault SearchResponse}
    (picks : Picks s now response t) (phase : s.phase = .searching) : Quiet s t := by
  have open_ : s.phase ≠ .ended := by
    rw [phase]
    nofun
  cases picks with
  | @failed fault =>
      have heard : Quiet s ((s.note now (.answered (.error fault))).conclude now .error) :=
        (Quiet.note rfl rfl rfl).trans .conclude
      exact (heard.trans (.fire _ now .failed)).enters open_
  | empty | skipped => exact ((Quiet.note rfl rfl rfl).trans .conclude).enters open_
  | accepted => exact (Quiet.note rfl rfl rfl).enters open_

theorem Hears.quiet {t : Session} {response : Except TransportFault SearchResponse}
    (hears : Hears s now response t) : Quiet s t := by
  cases hears with
  | unasked => exact .refl s
  | late phase =>
      refine .leave ?_
      rw [phase]
      nofun
  | picked phase _ picks => exact picks.quiet phase

theorem traffic_of_follow {t : Session} {cue : Cue} (h : s.follow? cue = some t) :
    Traffic s t (s.begins? cue) := by
  cases cue with
  | expire now => exact (move_of_expire h).traffic
  | proceed now =>
      obtain ⟨⟨u, args⟩, move, same⟩ := Option.map_eq_some_iff.mp h
      cases same
      have begun : s.begins? (.proceed now) = args := by rw [begins?, move, Option.bind_some]
      rw [begun]
      exact (move_of_proceed move).traffic
  | answer now response =>
      cases h
      exact .quiet (hears_answer s now response).quiet
  | take now =>
      obtain ⟨⟨event, u⟩, taken, same⟩ := Option.map_eq_some_iff.mp h
      cases same
      exact .take taken
  | stop now =>
      cases h
      exact .quiet (.fire s now .requested)
  | close =>
      cases h
      exact .quiet (.of_log rfl (.inl rfl) nofun id id)
  | drop now =>
      cases h
      have left : Quiet s { s.close with queue := [] } := .of_log rfl (.inr ⟨rfl, rfl⟩) nofun id id
      exact .quiet (left.trans (.fire _ now .requested))

/-! ## Searches -/

/-- What a session shows at the cues of a run, first one first. -/
def along {α : Type} (f : Session → Cue → Option α) (s : Session) : List Cue → List α
  | [] => []
  | cue :: cues => (f s cue).toList ++ ((s.follow? cue).map fun t => t.along f cues).getD []

theorem along_cons {α : Type} {f : Session → Cue → Option α} {t : Session} {cue : Cue}
    (first : s.follow? cue = some t) (cues : List Cue) :
    s.along f (cue :: cues) = (f s cue).toList ++ t.along f cues := by
  rw [along, first, Option.map_some, Option.getD_some]

theorem along_append {α : Type} {f : Session → Cue → Option α} {t : Session} {before : List Cue}
    (run : s.run? before = some t) (after : List Cue) :
    s.along f (before ++ after) = s.along f before ++ t.along f after := by
  induction before generalizing s with
  | nil =>
      cases run
      rfl
  | cons cue before ih =>
      obtain ⟨u, first, rest⟩ := Option.bind_eq_some_iff.mp run
      rw [List.cons_append, along_cons first, along_cons first, List.append_assoc, ih rest]

/-- What every cue adds to a list is added along every run. -/
theorem along_of_run {α : Type} {f : Session → Cue → Option α} {g : Session → List α}
    {P : Session → Prop} (keeps : ∀ {s t : Session} {cue : Cue}, s.follow? cue = some t → P s → P t)
    (adds : ∀ {s t : Session} {cue : Cue}, s.follow? cue = some t → P s →
      g t = g s ++ (f s cue).toList)
    {t : Session} {cues : List Cue} (run : s.run? cues = some t) (hs : P s) :
    g t = g s ++ s.along f cues := by
  induction cues generalizing s with
  | nil =>
      cases run
      exact (List.append_nil _).symm
  | cons cue cues ih =>
      obtain ⟨u, first, rest⟩ := Option.bind_eq_some_iff.mp run
      rw [along_cons first, ih rest (keeps first hs), adds first hs, List.append_assoc]

/-- What is read off something else at each cue is read off it along a run. -/
theorem along_filterMap {α β : Type} {f : Session → Cue → Option α} {g : Session → Cue → Option β}
    {k : α → Option β} (same : ∀ s cue, g s cue = (f s cue).bind k) {s : Session}
    (cues : List Cue) : s.along g cues = (s.along f cues).filterMap k := by
  induction cues generalizing s with
  | nil => rfl
  | cons cue cues ih =>
      rw [along, along, List.filterMap_append, same]
      congr 1
      · cases found : f s cue with
        | none => rfl
        | some a => cases read : k a <;> simp [read]
      · cases s.follow? cue with
        | none => rfl
        | some t => exact ih

/-- The searches that a session begins in a run, first one first. -/
def searches (s : Session) (cues : List Cue) : List SearchArgs := s.along begins? cues

theorem cutoffs_of_take {t : Session} {event : WatchEvent}
    (taken : s.take? now = some (event, t)) : t.cutoffs = s.cutoffs := by
  rw [(queue_of_take taken).2, cutoffs_note]
  exact List.append_nil _

/-- What passes adds a cutoff exactly if it is a search. -/
theorem Traffic.cutoffs {t : Session} {args : Option SearchArgs} (traffic : Traffic s t args) :
    t.cutoffs.map s.plan.searchSince = s.cutoffs.map s.plan.searchSince ++ args.toList := by
  cases traffic with
  | quiet quiet => rw [quiet.cutoffs, Option.toList_none, List.append_nil]
  | @ask now =>
      rw [cutoffs_note, List.map_append]
      rfl
  | deliver => rw [cutoffs_push, Option.toList_none, List.append_nil]; rfl
  | @report now status phase =>
      have open_ : (s.push now (.error status)).phase ≠ .ended := by rw [phase_push, phase]; nofun
      rw [(Quiet.finish open_).cutoffs, cutoffs_push, Option.toList_none, List.append_nil]
  | take taken => rw [cutoffs_of_take taken, Option.toList_none, List.append_nil]

theorem cutoffs_follow {t : Session} {cue : Cue} (h : s.follow? cue = some t) :
    t.cutoffs.map t.plan.searchSince =
      s.cutoffs.map s.plan.searchSince ++ (s.begins? cue).toList := by
  rw [plan_follow h]
  exact (traffic_of_follow h).cutoffs

/-- The searches of a run are those of its polls, each with the cutoff of its poll. -/
theorem searches_of_run {t : Session} {cues : List Cue} (run : s.run? cues = some t) :
    t.cutoffs.map t.plan.searchSince = s.cutoffs.map s.plan.searchSince ++ s.searches cues :=
  along_of_run (P := fun _ => True) (g := fun s => s.cutoffs.map s.plan.searchSince)
    (fun _ _ => trivial) (fun h _ => cutoffs_follow h) run trivial

/-! ## Events -/

/-- What the consumer took and what waits for it was handed over in this order, and while it is
there nothing else was. The events of the polls were handed over one poll after the other, and after
them at most a fault, with which the session has ended. -/
structure Passes (s : Session) : Prop where
  inOrder : s.received ++ s.queue <+: s.delivered
  queued : s.attached = true → s.received ++ s.queue = s.delivered
  told : ∃ fault : Option Status,
    s.delivered = s.changes ++ fault.toList.map .error ∧ (s.phase ≠ .ended → fault = none)

theorem passes_start (now : Nat) (present : Instant) (plan : WatchPlan) :
    (start now present plan).Passes where
  inOrder := List.nil_prefix
  queued _ := rfl
  told := ⟨none, rfl, fun _ => rfl⟩

/-- What the consumer took is the beginning of what was handed over. -/
theorem Passes.received_prefix_delivered (passes : s.Passes) : s.received <+: s.delivered :=
  (List.prefix_append s.received s.queue).trans passes.inOrder

theorem Passes.quiet {t : Session} (passes : s.Passes) (quiet : Quiet s t) : t.Passes where
  inOrder := by
    rw [quiet.received, quiet.delivered]
    rcases quiet.queue with same | ⟨_, thrown⟩
    · rw [same]
      exact passes.inOrder
    · rw [thrown, List.append_nil]
      exact (List.prefix_append _ _).trans passes.inOrder
  queued attached := by
    rw [quiet.received, quiet.queue_of_attached attached, quiet.delivered]
    exact passes.queued (quiet.attached attached)
  told := by
    obtain ⟨fault, delivered, unless_ended⟩ := passes.told
    refine ⟨fault, ?_, unless_ended ∘ quiet.ended⟩
    rw [quiet.delivered, quiet.changes, delivered]

/-- What was handed over before a session ended is what its polls handed over. -/
theorem Passes.delivered_eq (passes : s.Passes) (open_ : s.phase ≠ .ended) :
    s.delivered = s.changes := by
  obtain ⟨fault, delivered, unless_ended⟩ := passes.told
  rw [delivered, unless_ended open_]
  exact List.append_nil _

/-- A change that is handed over belongs to the poll that is under way. -/
theorem Told.changes_deliver {b : Bug} {rest : List Bug} {last : Option Instant}
    {next : ResourceVersion} (told : s.Told) (phase : s.phase = .delivering (b :: rest) last next)
    (now : Nat) :
    ({ s with phase := .delivering rest (some b.lastChange.truncate) next }.push now
      (s.plan.eventOf b)).changes = s.changes ++ [s.plan.eventOf b] := by
  rw [Told, phase] at told
  obtain ⟨earlier, found, done, polls, _⟩ := told
  refine (congrArg Poll.changes (polls_push _ now b)).trans ?_
  change Poll.changes (s.polls.modifyHead _) = Poll.changes s.polls ++ _
  rw [polls, List.modifyHead_cons, Poll.changes_cons, Poll.changes_cons, List.append_assoc]

theorem Passes.push {event : WatchEvent} (passes : s.Passes) (attached : s.attached = true) :
    (s.push now event).received ++ (s.push now event).queue = (s.push now event).delivered := by
  rw [received_push, delivered_push, ← passes.queued attached, List.append_assoc]
  rfl

theorem received_of_take {t : Session} {event : WatchEvent}
    (taken : s.take? now = some (event, t)) : t.received = s.received ++ [event] := by
  rw [(queue_of_take taken).2]
  exact received_note _ now (.taken event)

theorem Passes.take {t : Session} {event : WatchEvent} (passes : s.Passes)
    (taken : s.take? now = some (event, t)) : t.Passes := by
  obtain ⟨queue, same⟩ := queue_of_take taken
  have received := received_of_take taken
  have delivered : t.delivered = s.delivered := by
    rw [same]
    exact (delivered_note _ now (.taken event)).trans (List.append_nil _)
  have changes : t.changes = s.changes := by
    rw [same]
    exact Poll.changes_congr (events_note _ now rfl rfl)
  have still : t.attached = s.attached ∧ t.phase = s.phase := by
    rw [same]
    exact ⟨rfl, rfl⟩
  obtain ⟨fault, told, unless_ended⟩ := passes.told
  have moved : t.received ++ t.queue = s.received ++ s.queue := by
    rw [received, queue, List.append_assoc]
    rfl
  refine ⟨?_, fun attached => ?_, fault, ?_, fun open_ => unless_ended (still.2 ▸ open_)⟩
  · rw [moved, delivered]
    exact passes.inOrder
  · rw [moved, delivered, passes.queued (still.1 ▸ attached)]
  · rw [delivered, changes, told]

/-- A search hands nothing over. -/
theorem Passes.ask {wake : Nat} (passes : s.Passes) (phase : s.phase = .pausing wake) (now : Nat) :
    (s.ask now).Passes := by
  have asked : Passes { s with phase := .searching } :=
    passes.quiet ((Quiet.refl s).enters (by rw [phase]; nofun))
  have received : (s.ask now).received = s.received :=
    (received_note _ now (.asked s.watermark)).trans (List.append_nil _)
  have delivered : (s.ask now).delivered = s.delivered :=
    (delivered_note _ now (.asked s.watermark)).trans (List.append_nil _)
  have changes : (s.ask now).changes = s.changes := Poll.changes_read_asked s.watermark s.polls
  refine ⟨?_, fun attached => ?_, none, ?_, fun _ => rfl⟩
  · rw [received, delivered]
    exact asked.inOrder
  · rw [received, delivered]
    exact asked.queued attached
  · rw [delivered, changes]
    exact (asked.delivered_eq nofun).trans (List.append_nil _).symm

/-- A change that is handed over waits for the consumer behind those before it. -/
theorem Passes.deliver {b : Bug} {rest : List Bug} {last : Option Instant}
    {next : ResourceVersion} (passes : s.Passes) (told : s.Told)
    (phase : s.phase = .delivering (b :: rest) last next) (attached : s.attached = true)
    (now : Nat) :
    ({ s with phase := .delivering rest (some b.lastChange.truncate) next }.push now
      (s.plan.eventOf b)).Passes := by
  have handed := passes.delivered_eq (by rw [phase]; nofun)
  have moved : Passes { s with phase := .delivering rest (some b.lastChange.truncate) next } :=
    passes.quiet ((Quiet.refl s).enters (by rw [phase]; nofun))
  have whole := @Passes.push _ now (s.plan.eventOf b) moved attached
  refine ⟨whole ▸ List.prefix_rfl, fun _ => whole, none, ?_, fun _ => rfl⟩
  rw [told.changes_deliver phase, delivered_push, ← handed]
  exact (List.append_nil _).symm

theorem Passes.traffic {t : Session} {args : Option SearchArgs} (traffic : Traffic s t args)
    (told : s.Told) (passes : s.Passes) : t.Passes := by
  cases traffic with
  | quiet quiet => exact passes.quiet quiet
  | @ask now wake _ phase => exact passes.ask phase now
  | deliver phase _ attached => exact passes.deliver told phase attached _
  | @report now status phase attached =>
      have handed := passes.delivered_eq (by rw [phase]; nofun)
      have quiet : Quiet (s.push now (.error status)) ((s.push now (.error status)).finish now) :=
        .finish (by rw [phase_push, phase]; nofun)
      have whole := @Passes.push _ now (.error status) passes attached
      rw [← quiet.received, ← quiet.delivered, ← quiet.queue_of_attached attached] at whole
      refine ⟨whole ▸ List.prefix_rfl, fun _ => whole, some status, ?_, fun open_ => ?_⟩
      · rw [quiet.delivered, quiet.changes, delivered_push, handed]
        rfl
      · exact absurd rfl open_
  | take taken => exact passes.take taken

theorem Passes.follow {t : Session} {cue : Cue} (h : s.follow? cue = some t) (told : s.Told)
    (passes : s.Passes) : t.Passes :=
  passes.traffic (traffic_of_follow h) told

/-- **Every event takes its way through the queue in order, in every run.** -/
theorem passes_of_run {now : Nat} {present : Instant} {plan : WatchPlan} {s : Session}
    {cues : List Cue} (run : (start now present plan).run? cues = some s) : s.Passes :=
  (run?_preserves (P := fun s => s.Told ∧ s.Passes)
    (fun h both => ⟨both.1.follow h, both.2.follow h both.1⟩) run
    ⟨told_start now present plan, passes_start now present plan⟩).2

/-! ## A consumer that keeps receiving -/

/-- One step of events on their way: the session hands a change over or leaves its batch, or the
consumer takes an event. -/
inductive Onward (s : Session) (now : Nat) (t : Session) : Prop where
  | hand (delivering : s.isDelivering = true) (proceeds : s.follow? (.proceed now) = some t)
  | take (takes : s.follow? (.take now) = some t)

/-- How many steps onward there can be at most before an answer brings new events. -/
def backlog (s : Session) : Nat :=
  s.queue.length +
    match s.phase with
    | .delivering rest _ _ => 2 * rest.length + 1
    | _ => 0

theorem backlog_of_delivering {rest : List Bug} {last : Option Instant} {next : ResourceVersion}
    (phase : s.phase = .delivering rest last next) :
    s.backlog = s.queue.length + (2 * rest.length + 1) := by
  rw [backlog, phase]

/-- A session without a backlog has handed over all that it was told, and its consumer has taken
it. -/
theorem backlog_eq_zero_iff : s.backlog = 0 ↔ s.queue = [] ∧ s.isDelivering = false := by
  rw [backlog, isDelivering, Nat.add_eq_zero_iff, List.length_eq_zero_iff]
  cases s.phase <;> simp

/-- A session that leaves its batch keeps what waits for the consumer. -/
theorem backlog_leave (s : Session) (now : Nat) : (s.leave now).backlog = s.queue.length := by
  rcases s.leave_cases now with closing | ended
  · rw [closing]
    rfl
  · rw [ended]
    rfl

theorem backlog_abandon (s : Session) (now : Nat) (reason : StopReason) :
    ((s.fire now reason).finish now).backlog = s.queue.length := by
  rcases s.fire_cases now reason with ⟨_, same⟩ | ⟨_, fired⟩
  · rw [same]
    rfl
  · rw [fired]
    rfl

theorem backlog_push {rest : List Bug} {last : Option Instant} {next : ResourceVersion}
    (phase : s.phase = .delivering rest last next) (now : Nat) (event : WatchEvent) :
    (s.push now event).backlog = s.queue.length + (2 * rest.length + 2) := by
  rw [backlog_of_delivering (s := s.push now event) phase]
  change (s.queue ++ [event]).length + _ = _
  rw [List.length_append, List.length_singleton]
  omega

/-- Handing a change over takes it from the batch to the queue. -/
theorem backlog_handOver_lt {t : Session} {b : Bug} {rest : List Bug} {next : ResourceVersion}
    (handed : s.handOver? now b rest next = some t) :
    t.backlog < s.queue.length + (2 * (rest.length + 1) + 1) := by
  rcases handOver_cases handed with ⟨_, rfl⟩ | ⟨_, _, rfl⟩
  · rw [backlog_abandon]
    omega
  · rw [backlog_push rfl]
    change s.queue.length + _ < _
    omega

/-- A step with the next change takes it from the batch, or leaves the batch. -/
theorem backlog_deliver_lt {t : Session} {b : Bug} {rest : List Bug} {last : Option Instant}
    {next : ResourceVersion} (h : s.deliver? now b rest last next = some t) :
    t.backlog < s.queue.length + (2 * (b :: rest).length + 1) := by
  rw [List.length_cons]
  simp only [deliver?] at h
  split at h
  · cases h
    rw [backlog_leave]
    omega
  · exact backlog_handOver_lt h

/-- A step onward lessens the backlog, so there cannot be many before the next answer. -/
theorem lt_backlog_of_onward {t : Session} (onward : Onward s now t) : t.backlog < s.backlog := by
  cases onward with
  | hand delivering proceeds =>
      obtain ⟨⟨u, args⟩, move, same⟩ := Option.map_eq_some_iff.mp proceeds
      cases same
      obtain ⟨rest, last, next, phase⟩ := isDelivering_iff.mp delivering
      rw [backlog_of_delivering phase]
      cases rest with
      | nil =>
          simp only [proceed?, phase, Option.some.injEq, Prod.mk.injEq] at move
          rw [← move.1]
          exact Nat.lt_add_of_pos_right (Nat.succ_pos _)
      | cons b rest =>
          simp only [proceed?, phase, Option.map_eq_some_iff, Prod.mk.injEq] at move
          obtain ⟨v, handed, rfl, _⟩ := move
          exact backlog_deliver_lt handed
  | take takes =>
      obtain ⟨⟨event, u⟩, taken, same⟩ := Option.map_eq_some_iff.mp takes
      cases same
      obtain ⟨queue, same⟩ := queue_of_take taken
      rw [same, backlog, backlog, queue]
      exact Nat.add_lt_add_right (Nat.lt_succ_self _) _

theorem hasRoom_of_empty (room : 0 < s.plan.capacity) (empty : s.queue = []) :
    s.hasRoom = true := by
  rw [hasRoom, empty]
  exact decide_eq_true room

/-- A change can be handed over while the queue has room. -/
theorem exists_handOver (vacant : s.hasRoom = true) (now : Nat) (b : Bug) (rest : List Bug)
    (next : ResourceVersion) : ∃ t, s.handOver? now b rest next = some t := by
  rw [handOver?, if_pos vacant]
  split
  · exact ⟨_, rfl⟩
  · exact ⟨_, rfl⟩

/-- A session that hands changes over goes on while its queue has room. -/
theorem exists_proceed_of_delivering (vacant : s.hasRoom = true)
    (delivering : s.isDelivering = true) (now : Nat) :
    ∃ t, s.follow? (.proceed now) = some t := by
  obtain ⟨rest, last, next, phase⟩ := isDelivering_iff.mp delivering
  cases rest with
  | nil => exact ⟨_, by rw [follow?, proceed?, phase]; rfl⟩
  | cons b rest =>
      simp only [follow?, proceed?, phase, deliver?]
      split
      · exact ⟨_, rfl⟩
      · obtain ⟨t, handed⟩ := exists_handOver vacant now b rest next
        exact ⟨t, by rw [handed]; rfl⟩

/-- A session and its consumer are never in each other's way: as long as there is a backlog, one
of them has a step onward at any time. -/
theorem exists_onward (room : 0 < s.plan.capacity) (behind : s.backlog ≠ 0) (now : Nat) :
    ∃ t, Onward s now t := by
  by_cases empty : s.queue = []
  · have delivering : s.isDelivering = true := by
      by_contra left
      exact behind (backlog_eq_zero_iff.mpr ⟨empty, eq_false_of_ne_true left⟩)
    obtain ⟨t, proceeds⟩ :=
      exists_proceed_of_delivering (hasRoom_of_empty room empty) delivering now
    exact ⟨t, .hand delivering proceeds⟩
  · obtain ⟨event, queue, waiting⟩ := List.exists_cons_of_ne_nil empty
    exact ⟨_, .take (by rw [follow?, take?, waiting]; rfl)⟩

end Session

end BugFeed
