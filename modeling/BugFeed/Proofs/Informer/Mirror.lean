import BugFeed.Proofs.Informer.Coverage

/-!
# The store as a mirror of the server

While an informer watches, its store and the events that wait in the queue make up a mirror of the
server's records. What the mirror covers follows from what the session of the watch is doing
(`Stage`): all records up to the second that its watermark has seen, and during the delivery of a
batch all up to the second of the next watermark, but for the changes that remain to be handed
over. A session that leaves its work does so where a second ends. So what it has covered by then
reaches up to the version of the informer, from which the next session starts.

This is preserved by whatever the server does (`Follows.grows`), by the moves of the session
(`Follows.move`, `Follows.ask`), by the answers that it hears (`Follows.hears`) and when the
informer takes an event over (`Follows.take`). It holds of a session that is opened at a version
up to which the store covers the records (`Follows.start`).
-/

namespace BugFeed

set_option autoImplicit false

/-! ## What a session covers -/

namespace Session

variable {s t : Session}

/-- The last second of which a session has seen all changes: that of its watermark, or the one
before while the watermark is still at the start. -/
def covered (s : Session) : Int :=
  if s.watermark = s.plan.start then s.watermark.time.unixSeconds - 1
  else s.watermark.time.unixSeconds

theorem covered_le (s : Session) : s.covered ≤ s.watermark.time.unixSeconds := by
  rw [covered]
  split <;> omega

/-- Whatever lies beyond the second that a session has covered is not before its watermark. -/
theorem watermark_le (whole : s.plan.start.time.nano = 0) {t : Instant}
    (beyond : s.covered < t.unixSeconds) : s.watermark.time ≤ t := by
  rw [covered] at beyond
  split at beyond
  · rename_i unmoved
    refine DateTime.le_of_unixSeconds_le ?_ (by omega)
    rw [unmoved]
    exact whole
  · exact le_of_lt (DateTime.lt_of_unixSeconds_lt beyond)

/-- What the store will cover once it has taken over what waits in the queue, while a session is
doing something. During a pause after a poll, or after the list, all records are in the store once
the server is quiet, but for changes at the very start of a session that has accepted no answer. -/
def Stage (v : Server) (settled listed : Prop) (request : Option Request) (s : Session)
    (c : Store) (version : Int) : Phase → Prop
  | .pausing _ =>
      Covering v c s.covered version ∧
        (settled → s.polls ≠ [] ∨ listed → ∀ r ∈ v.records,
          Holds c r ∨ (s.watermark = s.plan.start ∧ r.lastChange = s.plan.start.time))
  | .searching =>
      Covering v c s.covered version ∧
        ∀ asked, request = some asked → asked.args.changedSince = some s.watermark.time
  | .delivering rest last next =>
      s.watermark.time < next.time ∧ Midway v c s.covered version rest last next.time.unixSeconds ∧
        (settled → ∀ r ∈ v.records, r.second ≤ next.time.unixSeconds)
  | .closing _ | .ended => Covering v c version version

/-- An event about a fault is the last one of a session that has ended. -/
def FaultLast (phase : Phase) (queue : List WatchEvent) : Prop :=
  ∀ before after status, queue = before ++ .error status :: after → phase = .ended ∧ after = []

/-- A session whose events lead a store and a version on as the records of a server do. -/
structure Follows (v : Server) (settled listed : Prop) (request : Option Request) (c : Store)
    (version : ResourceVersion) (s : Session) : Prop where
  attached : s.attached = true
  whole : s.plan.start.time.nano = 0
  started : s.plan.start.time ≤ s.watermark.time
  shows : ∀ f, s.plan.includes f = true
  reports : ∀ event ∈ s.queue, Reports v event
  faultLast : FaultLast s.phase s.queue
  stage : Stage v settled listed request s (c.applyAll s.queue)
    (version.observeAll s.queue).time.unixSeconds s.phase

variable {v w : Server} {settled settled' listed listed' : Prop} {request request' : Option Request}
  {c : Store} {version : ResourceVersion} {phase : Phase} {queue : List WatchEvent}
  {event : WatchEvent} {now : Nat} {args : Option SearchArgs}

/-! ## Faults in the queue -/

/-- No fault waits in the queue of a session that has not ended. -/
theorem FaultLast.mono (h : FaultLast phase queue) (running : phase ≠ .ended) (other : Phase) :
    FaultLast other queue :=
  fun before after status split => absurd (h before after status split).1 running

theorem FaultLast.append (h : FaultLast phase queue) (running : phase ≠ .ended) {other : Phase}
    (last : ∀ status, event = .error status → other = .ended) :
    FaultLast other (queue ++ [event]) := by
  intro before after status split
  rcases List.eq_nil_or_concat after with rfl | ⟨earlier, final, rfl⟩
  · obtain ⟨_, same⟩ := List.append_inj' split rfl
    exact ⟨last status (List.singleton_inj.mp same), rfl⟩
  · rw [List.concat_eq_append, ← List.cons_append, ← List.append_assoc] at split
    obtain ⟨inside, _⟩ := List.append_inj' split rfl
    exact absurd (h before earlier status inside).1 running

theorem FaultLast.tail (h : FaultLast phase (event :: queue)) : FaultLast phase queue :=
  fun before after status split => h (event :: before) after status (congrArg (event :: ·) split)

/-! ## Stages -/

theorem Stage.of_same {held : Int} (plan : t.plan = s.plan) (watermark : t.watermark = s.watermark)
    (polls : t.polls = s.polls) (stage : Stage v settled listed request s c held phase) :
    Stage v settled listed request t c held phase := by
  have covered : t.covered = s.covered := by rw [Session.covered, Session.covered, plan, watermark]
  cases phase <;> simpa only [Stage, covered, plan, watermark, polls] using stage

/-- Where a session may leave its work, the records up to the version are covered. -/
theorem Stage.left {held : Int} (stage : Stage v settled listed request s c held phase)
    (point : Leaves phase) : Covering v c held held := by
  cases point with
  | pausing => exact stage.1.atVersion
  | searching => exact stage.1.atVersion
  | delivering fresh => exact stage.2.1.cut fresh

theorem Stage.grows {held : Int} (stage : Stage v settled listed request s c held phase)
    (grows : v.Grows w) (quiet : settled' → settled ∧ ∀ r ∈ w.records, r ∈ v.records)
    (fewer : listed' → listed)
    (asked : ∀ q, request' = some q → ∃ p, request = some p ∧ p.args = q.args) :
    Stage w settled' listed' request' s c held phase := by
  cases phase with
  | pausing wake =>
      refine ⟨stage.1.grows grows, ?_⟩
      intro still polled r member
      obtain ⟨before, same⟩ := quiet still
      exact stage.2 before (polled.imp_right fewer) r (same r member)
  | searching =>
      refine ⟨stage.1.grows grows, ?_⟩
      intro q hq
      obtain ⟨p, hp, same⟩ := asked q hq
      rw [← same]
      exact stage.2 p hp
  | delivering rest last next =>
      refine ⟨stage.1, stage.2.1.grows grows, ?_⟩
      intro still r member
      obtain ⟨before, same⟩ := quiet still
      exact stage.2.2 before r (same r member)
  | closing status => exact Covering.grows stage grows
  | ended => exact Covering.grows stage grows

namespace Follows

/-! ## What the server does -/

theorem grows (follows : s.Follows v settled listed request c version) (grows : v.Grows w)
    (quiet : settled' → settled ∧ ∀ r ∈ w.records, r ∈ v.records) (fewer : listed' → listed)
    (asked : ∀ q, request' = some q → ∃ p, request = some p ∧ p.args = q.args) :
    s.Follows w settled' listed' request' c version where
  attached := follows.attached
  whole := follows.whole
  started := follows.started
  shows := follows.shows
  reports event member := (follows.reports event member).grows grows
  faultLast := follows.faultLast
  stage := follows.stage.grows grows quiet fewer asked

/-- The answer to its search, once heard, is no longer of concern to a session. -/
theorem forget (follows : s.Follows v settled listed request c version) :
    s.Follows v settled listed none c version :=
  follows.grows (.refl v) (fun still => ⟨still, fun _ member => member⟩) id fun q hq => by cases hq

/-! ## The moves of the session -/

/-- A session that enters a phase with its plan, its watermark and its queue as before goes on to
follow the server if the phase tells the truth about it. -/
theorem enters (follows : s.Follows v settled listed request c version) (plan : t.plan = s.plan)
    (watermark : t.watermark = s.watermark) (attached : t.attached = s.attached)
    (queue : t.queue = s.queue) (faultLast : FaultLast t.phase s.queue)
    (stage : Stage v settled' listed' request' t (c.applyAll s.queue)
      (version.observeAll s.queue).time.unixSeconds t.phase) :
    t.Follows v settled' listed' request' c version where
  attached := attached.trans follows.attached
  whole := by
    rw [plan]
    exact follows.whole
  started := by
    rw [plan, watermark]
    exact follows.started
  shows := by
    rw [plan]
    exact follows.shows
  reports := by
    rw [queue]
    exact follows.reports
  faultLast := by
    rw [queue]
    exact faultLast
  stage := by
    rw [queue]
    exact stage

theorem of_same (follows : s.Follows v settled listed request c version) (plan : t.plan = s.plan)
    (watermark : t.watermark = s.watermark) (polls : t.polls = s.polls)
    (attached : t.attached = s.attached) (queue : t.queue = s.queue) (phase : t.phase = s.phase) :
    t.Follows v settled listed request c version := by
  refine follows.enters plan watermark attached queue ?_ ?_
  · rw [phase]
    exact follows.faultLast
  · rw [phase]
    exact follows.stage.of_same plan watermark polls

theorem fire (follows : s.Follows v settled listed request c version) (now : Nat)
    (reason : StopReason) : (s.fire now reason).Follows v settled listed request c version := by
  rcases s.fire_cases now reason with ⟨_, same⟩ | ⟨_, fired⟩
  · rw [same]
    exact follows
  · rw [fired]
    exact follows.of_same rfl rfl rfl rfl rfl rfl

theorem leave (follows : s.Follows v settled listed request c version) (point : Leaves s.phase)
    (now : Nat) : (s.leave now).Follows v settled listed request c version := by
  have running : s.phase ≠ .ended := by
    intro ended
    rw [ended] at point
    cases point
  have covering := follows.stage.left point
  rcases s.leave_cases now with closing | ended
  · rw [closing]
    exact follows.enters rfl rfl rfl rfl (follows.faultLast.mono running _) covering
  · rw [ended]
    exact follows.enters rfl rfl rfl rfl (follows.faultLast.mono running _) covering

/-- At the end of a batch a session has covered the second of its new watermark. -/
theorem conclude {last : Option Instant} {next : ResourceVersion}
    (follows : s.Follows v settled listed request c version)
    (phase : s.phase = .delivering [] last next) (now : Nat) :
    (({ s with watermark := next }.conclude now .ok).pause now).Follows v settled listed request c
      version := by
  have stage := follows.stage
  have running := follows.faultLast.mono (phase ▸ fun ended => by cases ended)
  rw [phase] at stage
  obtain ⟨later, midway, quiet⟩ := stage
  have moved : next ≠ s.plan.start := by
    rintro rfl
    exact not_lt.mpr follows.started later
  have covered : (({ s with watermark := next }.conclude now .ok).pause now).covered =
      next.time.unixSeconds := if_neg moved
  have covering := midway.finish
  refine ⟨follows.attached, follows.whole, le_trans follows.started (le_of_lt later), follows.shows,
    follows.reports, running _, ?_, ?_⟩
  · rw [covered]
    exact covering
  · intro still _ r member
    exact .inl (covering.covers r member (quiet still r member))

/-- A session that hands a change over goes on to follow the server. -/
theorem deliver {b : Bug} {rest : List Bug} {last : Option Instant} {next : ResourceVersion}
    (regular : v.Regular) (copies : Copies v c)
    (follows : s.Follows v settled listed request c version)
    (phase : s.phase = .delivering (b :: rest) last next) (now : Nat) :
    ({ s with phase := .delivering rest (some b.lastChange.truncate) next }.push now
      (s.plan.eventOf b)).Follows v settled listed request c version := by
  have stage := follows.stage
  rw [phase] at stage
  obtain ⟨later, midway, quiet⟩ := stage
  have about : (s.plan.eventOf b).bug? = some b := s.plan.bug?_eventOf b
  obtain ⟨f, rfl, told, low, high⟩ := midway.tells b List.mem_cons_self
  have reports : Reports v (s.plan.eventOf (.ofInfo f)) := reports_of_tells told about
  have running : s.phase ≠ .ended := phase ▸ fun ended => by cases ended
  have reached : (version.observeAll (s.queue ++ [s.plan.eventOf (.ofInfo f)])).time.unixSeconds =
      f.second := by
    rw [ResourceVersion.observeAll_append, ResourceVersion.observe, about]
    exact (ResourceVersion.latest_unixSeconds _ _).trans (Int.max_eq_right low)
  have handed := midway.hand regular (copies.applyAll follows.reports) about
  refine ⟨follows.attached, follows.whole, follows.started, follows.shows, ?_,
    follows.faultLast.append running ?_, later, ?_, quiet⟩
  · intro e member
    rcases List.mem_append.mp member with member | member
    · exact follows.reports e member
    · rw [List.mem_singleton.mp member]
      exact reports
  · intro status fault
    rw [fault] at about
    cases about
  · change Midway v (c.applyAll (s.queue ++ [_])) s.covered
      (version.observeAll (s.queue ++ [_])).time.unixSeconds rest _ _
    rw [Store.applyAll_append, reached]
    exact handed

/-- A session that hands the fault over has covered what it had covered before. -/
theorem report {status : Status} (follows : s.Follows v settled listed request c version)
    (phase : s.phase = .closing status) (now : Nat) :
    ((s.push now (.error status)).finish now).Follows v settled listed request c version := by
  have stage := follows.stage
  rw [phase] at stage
  have running : s.phase ≠ .ended := phase ▸ fun ended => by cases ended
  refine ⟨follows.attached, follows.whole, follows.started, follows.shows, ?_,
    follows.faultLast.append running fun _ _ => rfl, ?_⟩
  · intro e member
    rcases List.mem_append.mp member with member | member
    · exact follows.reports e member
    · rw [List.mem_singleton.mp member]
      intro b about
      cases about
  · change Covering v (c.applyAll (s.queue ++ [.error status]))
      (version.observeAll (s.queue ++ [.error status])).time.unixSeconds
      (version.observeAll (s.queue ++ [.error status])).time.unixSeconds
    rw [Store.applyAll_append, ResourceVersion.observeAll_append, Store.apply_eq_self _ rfl]
    exact stage

/-- **A session that moves without a search goes on to follow the server.** -/
theorem move (regular : v.Regular) (copies : Copies v c)
    (follows : s.Follows v settled listed request c version) (move : Move s now t none) :
    t.Follows v settled listed request c version := by
  cases move with
  | expire => exact follows.fire now .expired
  | leave _ point => exact follows.leave point now
  | conclude phase => exact follows.conclude phase now
  | deliver phase => exact follows.deliver regular copies phase now
  | abandon _ detached =>
      rw [follows.attached] at detached
      cases detached
  | report phase => exact follows.report phase now
  | vanish _ detached =>
      rw [follows.attached] at detached
      cases detached

/-- A session that begins a search looks for what lies beyond what it has covered. -/
theorem ask {asked : SearchArgs} {began : Instant}
    (follows : s.Follows v settled listed request c version) (move : Move s now t (some asked)) :
    t.Follows v settled' listed (some { args := asked, began := began }) c version := by
  cases move with
  | ask _ phase =>
      have stage := follows.stage
      rw [phase] at stage
      have faultLast := follows.faultLast.mono (phase ▸ fun ended => by cases ended)
      refine follows.enters rfl rfl rfl rfl (faultLast _) ⟨stage.1, ?_⟩
      intro q hq
      cases hq
      rfl

/-! ## Answers -/

/-- An answer in which a session finds nothing new. -/
theorem unmoved {found : SearchResponse} {asked : Request} {wake : Nat} {u : Session}
    (follows : s.Follows v settled listed (some asked) c version) (phase : s.phase = .searching)
    (answered : asked.Answered v settled found)
    (stale : ∀ f ∈ found.bugs, f.lastChange ≤ s.watermark.time)
    (plan : u.plan = s.plan) (watermark : u.watermark = s.watermark)
    (attached : u.attached = s.attached) (queue : u.queue = s.queue)
    (pausing : u.phase = .pausing wake) : u.Follows v settled listed none c version := by
  have stage := follows.stage
  rw [phase] at stage
  obtain ⟨covering, since⟩ := stage
  have covered : u.covered = s.covered := by rw [Session.covered, Session.covered, plan, watermark]
  have faultLast := follows.faultLast.mono (phase ▸ fun ended => by cases ended)
  refine follows.enters plan watermark attached queue (faultLast _) ?_
  rw [pausing]
  constructor
  · rw [covered]
    exact covering
  · intro still _ r member
    by_cases early : r.second ≤ s.covered
    · exact .inl (covering.covers r member early)
    · obtain ⟨inside, late⟩ := answered.beyond (since asked rfl)
        (fun _ => s.watermark_le follows.whole) still member (Int.not_le.mp early)
      have atCutoff := le_antisymm (stale r inside) late
      by_cases start : s.watermark = s.plan.start
      · rw [plan, watermark]
        exact .inr ⟨start, atCutoff.trans (congrArg ResourceVersion.time start)⟩
      · refine absurd ?_ early
        rw [Session.covered, if_neg start, ← atCutoff]
        exact Int.le_refl _

/-- An accepted answer gives a session the batch that leads it to the next watermark. -/
theorem accept {found : SearchResponse} {next : ResourceVersion} {asked : Request}
    (follows : s.Follows v settled listed (some asked) c version) (phase : s.phase = .searching)
    (answered : asked.Answered v settled found) (latest : found.latestChange? = some next)
    (fresh : s.watermark.time < next.time) (now : Nat) :
    ({ s.note now (.answered (.ok found)) with
        phase := .delivering (s.plan.batch s.watermark found) none next }).Follows v settled listed
      none c version := by
  have stage := follows.stage
  rw [phase] at stage
  obtain ⟨covering, since⟩ := stage
  have edge : ∀ t : Instant, s.covered < t.unixSeconds → s.watermark.time ≤ t :=
    fun _ => s.watermark_le follows.whole
  have faultLast := follows.faultLast.mono (phase ▸ fun ended => by cases ended)
  have midway := covering.midway answered (since asked rfl) follows.shows s.covered_le edge latest
    fresh
  refine follows.enters rfl rfl rfl rfl (faultLast _) ⟨fresh, midway, ?_⟩
  intro still r member
  by_cases early : r.second ≤ s.covered
  · exact Int.le_trans (Int.le_trans early s.covered_le)
      (DateTime.unixSeconds_le_of_le (le_of_lt fresh))
  · have inside := (answered.beyond (since asked rfl) edge still member (Int.not_le.mp early)).1
    exact DateTime.unixSeconds_le_of_le (SearchResponse.le_latestChange latest inside)

/-- A failed search leaves what a session has covered. -/
theorem fail {fault : TransportFault} (follows : s.Follows v settled listed request c version)
    (phase : s.phase = .searching) (now : Nat) :
    ({ ((s.note now (.answered (.error fault))).conclude now .error).fire now .failed with
        phase := .closing (.internalError fault) }).Follows v settled listed none c version := by
  have stage := follows.stage
  rw [phase] at stage
  have faultLast := follows.faultLast.mono (phase ▸ fun ended => by cases ended)
  rcases ((s.note now (.answered (.error fault))).conclude now .error).fire_cases now .failed with
    ⟨_, same⟩ | ⟨_, fired⟩
  · rw [same]
    exact follows.enters rfl rfl rfl rfl (faultLast _) stage.1.atVersion
  · rw [fired]
    exact follows.enters rfl rfl rfl rfl (faultLast _) stage.1.atVersion

/-- **A session that hears an honest answer goes on to follow the server.** -/
theorem hears {asked : Request} {response : Except TransportFault SearchResponse}
    (follows : s.Follows v settled listed (some asked) c version)
    (answered : ∀ found, response = .ok found → asked.Answered v settled found)
    (hears : Hears s now response t) : t.Follows v settled listed none c version := by
  cases hears with
  | unasked => exact follows.forget
  | late phase => exact (follows.leave (phase ▸ .searching) now).forget
  | picked phase _ picks =>
      cases picks with
      | failed => exact follows.fail phase now
      | empty nothing =>
          refine follows.unmoved phase (answered _ rfl) ?_ rfl rfl rfl rfl rfl
          intro f member
          rw [SearchResponse.latestChange?_eq_none_iff.mp nothing] at member
          cases member
      | skipped latest stale =>
          exact follows.unmoved phase (answered _ rfl) (le_cutoff_of_stale latest stale) rfl rfl rfl
            rfl rfl
      | accepted latest fresh =>
          exact follows.accept phase (answered _ rfl) latest (ResourceVersion.isAfter_iff.mp fresh)
            now

/-! ## The informer -/

/-- **A session goes on to follow the server when the informer takes an event about a bug over.** -/
theorem take {b : Bug} (follows : s.Follows v settled listed request c version)
    (taken : s.take? now = some (event, t)) (about : event.bug? = some b)
    (fewer : listed' → listed) :
    t.Follows v settled listed' request (c.apply event).1 (version.latest ⟨b.lastChange⟩) := by
  obtain ⟨queue, same⟩ := queue_of_take taken
  have reached : version.latest ⟨b.lastChange⟩ = version.observe event := by
    rw [ResourceVersion.observe, about]
  have inside : ∀ e ∈ t.queue, e ∈ s.queue := fun e member => by
    rw [queue]
    exact List.mem_cons_of_mem _ member
  have faultLast := follows.faultLast
  have stage := follows.stage
  rw [queue] at faultLast stage
  rw [reached, same]
  refine ⟨follows.attached, follows.whole, follows.started, follows.shows,
    fun e member => follows.reports e (inside e member), faultLast.tail, ?_⟩
  have still : Stage v settled listed' request s ((c.apply event).1.applyAll t.queue)
      ((version.observe event).observeAll t.queue).time.unixSeconds s.phase :=
    stage.grows (.refl v) (fun still => ⟨still, fun _ member => member⟩) fewer
      fun q hq => ⟨q, hq, rfl⟩
  exact still.of_same rfl rfl rfl

/-- When the informer takes the fault over, the store covers the records up to its version. -/
theorem take_fault {status : Status} (follows : s.Follows v settled listed request c version)
    (taken : s.take? now = some (.error status, t)) :
    Covering v c version.time.unixSeconds version.time.unixSeconds := by
  obtain ⟨queue, _⟩ := queue_of_take taken
  obtain ⟨ended, nothing⟩ := follows.faultLast [] t.queue status queue
  have stage := follows.stage
  rw [queue, nothing, ended] at stage
  exact stage

/-- When a session has ended and nothing waits, the store covers the records up to the version of
the informer. -/
theorem closed (follows : s.Follows v settled listed request c version) (empty : s.queue = [])
    (closed : s.isClosed = true) :
    Covering v c version.time.unixSeconds version.time.unixSeconds := by
  have ended : s.phase = .ended := by
    rw [isClosed, follows.attached, Bool.not_true, Bool.or_false] at closed
    exact of_decide_eq_true closed
  have stage := follows.stage
  rw [empty, ended] at stage
  exact stage

/-- **A session that is opened at the version up to which the store covers the records follows the
server.** -/
theorem start {plan : WatchPlan} {now : Nat} {present : Instant}
    (covering : Covering v c version.time.unixSeconds version.time.unixSeconds)
    (second : plan.start.time.unixSeconds = version.time.unixSeconds + 1)
    (whole : plan.start.time.nano = 0) (shows : ∀ f, plan.includes f = true)
    (fresh : settled → listed → ∀ r ∈ v.records, Holds c r) :
    (Session.start now present plan).Follows v settled listed request c version := by
  have covered : (Session.start now present plan).covered = version.time.unixSeconds := by
    have unmoved : (Session.start now present plan).covered = plan.start.time.unixSeconds - 1 :=
      if_pos rfl
    omega
  refine ⟨rfl, whole, le_refl _, shows, fun e member => (by cases member), ?_, ?_, ?_⟩
  · intro before after status split
    cases before <;> cases split
  · rw [covered]
    exact covering
  · intro still polled r member
    rcases polled with polled | listed
    · exact absurd rfl polled
    · exact .inl (fresh still listed r member)

end Follows

/-! ## Where a record is -/

/-- A change is on its way to the store: it waits in the queue, or is still to be handed over. -/
def OnTheWay (s : Session) (b : Bug) : Prop :=
  (∃ event ∈ s.queue, event.bug? = some b) ∨
    ∃ rest last next, s.phase = .delivering rest last next ∧ b ∈ rest

/-- The second of the next cutoff: that of the watermark, that of the next watermark once the batch
is handed over, or the one after the version that the informer will have come to. -/
def nextCutoff (s : Session) (version : ResourceVersion) : Int :=
  match s.phase with
  | .pausing _ | .searching => s.watermark.time.unixSeconds
  | .delivering _ _ next => next.time.unixSeconds
  | .closing _ | .ended => (version.observeAll s.queue).time.unixSeconds + 1

theorem watermark_le_covered (s : Session) : s.watermark.time.unixSeconds ≤ s.covered + 1 := by
  rw [covered]
  split <;> omega

/-- What the store holds once all waiting events are taken over, it holds now, or a waiting event
reports it. -/
theorem held_or_waiting {r : BugInfo} (holds : Holds (c.applyAll s.queue) r) :
    Holds c r ∨ s.OnTheWay (.ofInfo r) :=
  (Store.get?_applyAll holds).imp_right .inl

/-- A record is held, or on its way, or lies at the next cutoff or beyond. -/
theorem Follows.held_or_beyond (follows : s.Follows v settled listed request c version)
    {r : BugInfo} (member : r ∈ v.records) :
    Holds c r ∨ s.OnTheWay (.ofInfo r) ∨ s.nextCutoff version ≤ r.second := by
  have stage := follows.stage
  have edge := s.watermark_le_covered
  have covered : ∀ {second reached : Int}, Covering v (c.applyAll s.queue) second reached →
      s.nextCutoff version ≤ second + 1 →
      Holds c r ∨ s.OnTheWay (.ofInfo r) ∨ s.nextCutoff version ≤ r.second := by
    intro second reached covering next
    by_cases early : r.second ≤ second
    · exact (held_or_waiting (covering.covers r member early)).imp_right .inl
    · exact .inr (.inr (by omega))
  rw [nextCutoff] at covered ⊢
  cases phase : s.phase with
  | pausing wake =>
      rw [phase] at stage covered
      exact covered stage.1 edge
  | searching =>
      rw [phase] at stage covered
      exact covered stage.1 edge
  | delivering rest last next =>
      rw [phase] at stage
      by_cases early : r.second ≤ next.time.unixSeconds
      · rcases stage.2.1.remain r member early with holds | remains
        · exact (held_or_waiting holds).imp_right .inl
        · exact .inr (.inl (.inr ⟨rest, last, next, phase, remains⟩))
      · exact .inr (.inr (Int.le_of_lt (Int.not_le.mp early)))
  | closing status =>
      rw [phase] at stage covered
      exact covered stage (Int.le_refl _)
  | ended =>
      rw [phase] at stage covered
      exact covered stage (Int.le_refl _)

/-- Once the server is quiet, nothing waits and a poll has ended, a record is held unless it
changed at the very start of a session that has accepted no answer. -/
theorem Follows.held_or_missed (follows : s.Follows v settled listed request c version) {wake : Nat}
    (phase : s.phase = .pausing wake) (empty : s.queue = []) (quiet : settled)
    (polled : s.polls ≠ [] ∨ listed) {r : BugInfo} (member : r ∈ v.records) :
    Holds c r ∨ (s.watermark = s.plan.start ∧ r.lastChange = s.plan.start.time) := by
  have stage := follows.stage
  rw [phase, empty] at stage
  exact stage.2 quiet polled r member

end Session

end BugFeed
