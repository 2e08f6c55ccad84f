import BugFeed.Proofs.Informer.Superseded
import BugFeed.Proofs.Watch.Stream

/-!
# The sessions of an informer

An informer has had the session that it has now and those that it has left behind. What it does
moves the present session by one step (`Session.Step`), opens a new one from a plan of its feed, or
does both, and leaves all others as they are (`Evolves`, `evolves_follow`). So what holds of every
session when it is opened and survives each step of a session holds of all sessions of an informer
in every run (`sessions_of_run`).

An informer never goes away from a session before it has taken all that the session hands over: the
sessions that it has left behind have ended, and nothing waits for it there (`Attends`).
-/

namespace BugFeed

set_option autoImplicit false

/-! ## Steps of a session -/

/-- What becomes of a session when its informer or the session itself does something. -/
inductive Session.Step (s : Session) : Session → Prop where
  | move {t : Session} {now : Nat} {args : Option SearchArgs} (move : s.Move now t args) : Step s t
  | hears {t : Session} {now : Nat} {response : Except TransportFault SearchResponse}
      (hears : s.Hears now response t) : Step s t
  | take {t : Session} {now : Nat} {event : WatchEvent} (taken : s.take? now = some (event, t)) :
      Step s t
  | stop (now : Nat) : Step s (s.stop now)

namespace Session

variable {s t : Session} {now : Nat}

/-- A session whose consumer is an informer: it goes on according to its rules, the consumer stays,
and there is room for one event at least. -/
structure Attended (s : Session) : Prop where
  lawful : s.Lawful
  attached : s.attached = true
  room : 0 < s.plan.capacity

theorem attended_start {feed : Feed} {options : ListOptions} {plan : WatchPlan}
    (planned : feed.plan options = .ok plan) (now : Nat) (present : Instant) :
    (start now present plan).Attended where
  lawful := lawful_start now present plan
  attached := rfl
  room := by
    rw [Feed.plan] at planned
    cases parsed : ResourceVersion.parse (options.version.getD "") with
    | error fault =>
        rw [parsed] at planned
        cases planned
    | ok version =>
        rw [parsed] at planned
        cases planned
        exact Nat.lt_of_lt_of_le Nat.zero_lt_one (Nat.le_max_left 1 _)

theorem Step.plan (step : s.Step t) : t.plan = s.plan := by
  cases step with
  | move move => exact move.plan
  | hears hears => exact hears.plan
  | take taken => rw [(queue_of_take taken).2]; rfl
  | stop now => exact s.plan_fire now _

theorem Step.attended (step : s.Step t) (attended : s.Attended) : t.Attended := by
  obtain ⟨lawful, attached, room⟩ := attended
  have kept : 0 < t.plan.capacity := by rwa [step.plan]
  cases step with
  | move move => exact ⟨lawful.move move, move.attached.trans attached, kept⟩
  | hears hears => exact ⟨lawful.hears hears, hears.attached.trans attached, kept⟩
  | take taken =>
      refine ⟨lawful.take taken, ?_, kept⟩
      rw [(queue_of_take taken).2]
      exact attached
  | stop now => exact ⟨lawful.stop now, (s.attached_fire now _).trans attached, kept⟩

/-- A session whose fault has been taken has ended, and nothing waits there. -/
theorem Lawful.ended_of_fault (lawful : s.Lawful) {status : Status}
    (taken : s.take? now = some (.error status, t)) : t.phase = .ended ∧ t.queue = [] := by
  obtain ⟨changes, fault, received, about, ended⟩ := (lawful.take taken).received_eq
  have member : .error status ∈ t.received := by
    rw [received_of_take taken]
    exact List.mem_append_right _ (List.mem_singleton_self _)
  refine ended ?_
  rintro rfl
  rw [received, Option.toList_none, List.map_nil, List.append_nil] at member
  obtain ⟨b, same⟩ := about _ member
  have tells := t.plan.status?_eventOf b
  rw [← same] at tells
  cases tells

/-- An attended session that is closed has ended. -/
theorem Attended.ended_of_closed (attended : s.Attended) (closed : s.isClosed = true) :
    s.phase = .ended := by
  simpa [isClosed, hasEnded, attended.attached] using closed

end Session

namespace Informer

/-- What becomes of the sessions of an informer, newest first: the newest one may make a step, and
new ones may be opened. -/
inductive Evolves : List Session → List Session → Prop where
  | same (sessions : List Session) : Evolves sessions sessions
  | step {s t : Session} (step : s.Step t) (older : List Session) :
      Evolves (s :: older) (t :: older)
  | opened {before after : List Session} {feed : Feed} {options : ListOptions} {plan : WatchPlan}
      (evolves : Evolves before after) (planned : feed.plan options = .ok plan) (now : Nat)
      (present : Instant) : Evolves before (.start now present plan :: after)

variable {i j k : Informer} {now : Nat} {present : Instant} {args : Option SearchArgs}

theorem sessions_of_without (without : i.session? = none) : i.sessions = i.past := by
  rw [sessions, without]
  rfl

theorem sessions_of_watching {s : Session} (phase : i.phase = .watching s) :
    i.sessions = s :: i.past := by
  rw [sessions, session?, phase]
  rfl

theorem sessions_of_draining {s : Session} (phase : i.phase = .draining s) :
    i.sessions = s :: i.past := by
  rw [sessions, session?, phase]
  rfl

/-- An informer that opens a watch has one more session than it left behind, or none. -/
theorem sessions_openWatch (i : Informer) (now : Nat) (present : Instant) :
    (∃ options plan, i.feed.plan options = .ok plan ∧
        (i.openWatch now present).sessions = .start now present plan :: i.past) ∨
      (i.openWatch now present).sessions = i.past := by
  rcases i.openWatch_cases now present with ⟨plan, planned, opened⟩ | ⟨fault, finished⟩ | broken
  · rw [opened]
    exact .inl ⟨_, plan, planned, rfl⟩
  · rw [finished]
    exact .inr rfl
  · rw [broken]
    exact .inr rfl

theorem Evolves.openWatch {before : List Session} (evolves : Evolves before i.past) (now : Nat)
    (present : Instant) : Evolves before (i.openWatch now present).sessions := by
  rcases i.sessions_openWatch now present with ⟨options, plan, planned, opened⟩ | unopened
  · rw [opened]
    exact evolves.opened planned now present
  · rw [unopened]
    exact evolves

theorem Evolves.rewatch {before : List Session} (evolves : Evolves before i.sessions) (now : Nat)
    (present : Instant) : Evolves before (i.rewatch now present).sessions :=
  Evolves.openWatch (i := ({ i.leave with relists := 0 } : Informer).count (.cycled .rewatch))
    evolves now present

theorem Evolves.takeOver {before : List Session} (evolves : Evolves before i.past) (now : Nat)
    (present : Instant) (list : BugList) :
    Evolves before (i.takeOver now present list).sessions := by
  rcases i.takeOver_cases now present list with ⟨version, _, taken⟩ | ⟨fault, finished⟩
  · rw [taken]
    exact Evolves.openWatch (i := Informer.note
      { i with store := .replace list.items, synced := true, version := version } now
      (.listed list)) evolves now present
  · rw [finished]
    exact evolves

theorem sessions_attemptFailed (i : Informer) (now : Nat) (retry : Retry) (fault : Fault) :
    (i.attemptFailed now retry fault).sessions = i.past := by
  rcases i.attemptFailed_cases now retry fault with ⟨next, wake, retrying⟩ | finished
  · rw [retrying]
    rfl
  · rw [finished]
    rfl

theorem sessions_beginList (i : Informer) (now : Nat) (present : Instant) :
    (i.beginList now present).1.sessions = i.past := by
  rcases i.beginList_cases now present with asked | finished
  · rw [asked]
    rfl
  · rw [finished]
    rfl

theorem Evolves.consume {before : List Session} (evolves : Evolves before i.sessions) (now : Nat)
    (present : Instant) (event : WatchEvent) :
    Evolves before (i.consume now present event).sessions := by
  rcases i.consume_cases now present event with
    ⟨b, _, absorbed⟩ | ⟨status, _, rewatched | rested⟩
  · rw [absorbed]
    exact evolves
  · rw [rewatched]
    exact Evolves.rewatch (i := i.note now (.closed (some status))) evolves now present
  · rw [rested]
    exact evolves

theorem Evolves.act (act : Act i now present j args) : Evolves i.sessions j.sessions := by
  cases act with
  | list phase =>
      rw [sessions_beginList, sessions_of_without (by rw [session?, phase])]
      exact .same _
  | timeOut phase =>
      rw [sessions_attemptFailed, sessions_of_without (by rw [session?, phase])]
      exact .same _
  | retry phase =>
      rw [sessions_of_without (i := i) (by rw [session?, phase])]
      exact .same _
  | giveUp without =>
      rw [sessions_of_without without]
      exact .same _
  | @take s t event phase taken =>
      rw [sessions_of_watching phase]
      exact Evolves.consume (i := { i with phase := .watching t }) (.step (.take taken) i.past) now
        present event
  | closed => exact Evolves.rewatch (i := i.note now (.closed none)) (.same _) now present
  | watch phase move =>
      rw [sessions_of_watching phase]
      exact .step (.move move) i.past
  | stop phase =>
      rw [sessions_of_watching phase]
      exact .step (.stop now) i.past
  | discard phase taken =>
      rw [sessions_of_draining phase]
      exact .step (.take taken) i.past
  | drained => exact .same i.sessions
  | drain phase move =>
      rw [sessions_of_draining phase]
      exact .step (.move move) i.past

theorem Evolves.heard {response : Except TransportFault SearchResponse}
    (heard : Heard i now present response j) : Evolves i.sessions j.sessions := by
  cases heard with
  | ignored => exact .same _
  | @list retry deadline anchor found phase =>
      rw [sessions_of_without (i := i) (by rw [session?, phase])]
      exact Evolves.takeOver (.same i.past) now present _
  | failed phase =>
      rw [sessions_attemptFailed, sessions_of_without (by rw [session?, phase])]
      exact .same _
  | watch phase hears =>
      rw [sessions_of_watching phase]
      exact .step (.hears hears) i.past
  | drain phase hears =>
      rw [sessions_of_draining phase]
      exact .step (.hears hears) i.past

/-- **What an informer does moves at most its present session and opens new ones.** -/
theorem evolves_follow {cue : Cue} (h : i.follow? cue = some (j, args)) :
    Evolves i.sessions j.sessions := by
  rcases act_of_follow h with
    ⟨now, present, act⟩ | ⟨_, _, rfl⟩ | ⟨now, present, response, _, _, rfl⟩
  · exact .act act
  · exact .same _
  · exact .heard (heard_answer i now present response)

theorem Evolves.forall {P : Session → Prop}
    (opens : ∀ (feed : Feed) (options : ListOptions) (plan : WatchPlan) (now : Nat)
      (present : Instant), feed.plan options = .ok plan → P (.start now present plan))
    (steps : ∀ s t : Session, s.Step t → P s → P t) {before after : List Session}
    (evolves : Evolves before after) (holds : ∀ s ∈ before, P s) : ∀ s ∈ after, P s := by
  induction evolves with
  | same sessions => exact holds
  | step step older =>
      obtain ⟨first, others⟩ := List.forall_mem_cons.mp holds
      exact List.forall_mem_cons.mpr ⟨steps _ _ step first, others⟩
  | opened _ planned now present ih =>
      exact List.forall_mem_cons.mpr ⟨opens _ _ _ now present planned, ih holds⟩

/-- **What holds of a session when it is opened and survives each of its steps holds of all sessions
of an informer, in every run.** -/
theorem sessions_of_run {P : Session → Prop}
    (opens : ∀ (feed : Feed) (options : ListOptions) (plan : WatchPlan) (now : Nat)
      (present : Instant), feed.plan options = .ok plan → P (.start now present plan))
    (steps : ∀ s t : Session, s.Step t → P s → P t) {cues : List Cue}
    (run : i.run? cues = some k) (holds : ∀ s ∈ i.sessions, P s) : ∀ s ∈ k.sessions, P s :=
  run?_preserves (P := fun j => ∀ s ∈ j.sessions, P s)
    (fun h holds => (evolves_follow h).forall opens steps holds) run holds

/-! ## Sessions that were left behind -/

/-- An informer that attends to its sessions: those that it has left behind have ended, and nothing
waits for it there. -/
structure Attends (i : Informer) : Prop where
  sessions : ∀ s ∈ i.sessions, s.Attended
  past : ∀ s ∈ i.past, s.phase = .ended ∧ s.queue = []

theorem past_openWatch (i : Informer) (now : Nat) (present : Instant) :
    (i.openWatch now present).past = i.past := by
  rcases i.openWatch_cases now present with ⟨plan, _, opened⟩ | ⟨fault, finished⟩ | broken
  · rw [opened]
    rfl
  · rw [finished]
    rfl
  · rw [broken]

theorem past_rewatch (i : Informer) (now : Nat) (present : Instant) :
    (i.rewatch now present).past = i.sessions := by
  rw [rewatch, past_openWatch]
  rfl

theorem past_takeOver (i : Informer) (now : Nat) (present : Instant) (list : BugList) :
    (i.takeOver now present list).past = i.past := by
  rcases i.takeOver_cases now present list with ⟨version, _, taken⟩ | ⟨fault, finished⟩
  · rw [taken, past_openWatch]
    rfl
  · rw [finished]
    rfl

theorem past_beginList (i : Informer) (now : Nat) (present : Instant) :
    (i.beginList now present).1.past = i.past := by
  rcases i.beginList_cases now present with asked | finished
  · rw [asked]
    rfl
  · rw [finished]
    rfl

theorem past_attemptFailed (i : Informer) (now : Nat) (retry : Retry) (fault : Fault) :
    (i.attemptFailed now retry fault).past = i.past := by
  rcases i.attemptFailed_cases now retry fault with ⟨next, wake, retrying⟩ | finished
  · rw [retrying]
    rfl
  · rw [finished]
    rfl

/-- What an informer has left behind after a cue: what it had before, and maybe a session whose
fault it has taken or one that is closed and has nothing more for it. -/
inductive LeavesBehind (i : Informer) : List Session → Prop where
  | nothing : LeavesBehind i i.past
  | failed {s t : Session} {now : Nat} {status : Status} (phase : i.phase = .watching s)
      (taken : s.take? now = some (.error status, t)) : LeavesBehind i (t :: i.past)
  | closed {s : Session} (own : i.session? = some s) (empty : s.queue = [])
      (closed : s.isClosed = true) : LeavesBehind i (s :: i.past)

theorem leavesBehind_consume {s t : Session} {event : WatchEvent} (phase : i.phase = .watching s)
    (taken : s.take? now = some (event, t)) :
    LeavesBehind i
      (({ i with phase := .watching t } : Informer).consume now present event).past := by
  rcases ({ i with phase := .watching t } : Informer).consume_cases now present event with
    ⟨b, _, absorbed⟩ | ⟨status, rfl, rewatched | rested⟩
  · rw [absorbed]
    exact .nothing
  · rw [rewatched, past_rewatch]
    exact .failed phase taken
  · rw [rested]
    exact .failed phase taken

theorem leavesBehind_turn (turn : Turn i now present j args) : LeavesBehind i j.past := by
  cases turn with
  | drained _ phase untaken closed =>
      have left : (i.leave.finish now (.ok ())).past = _ := sessions_of_draining phase
      rw [left]
      exact .closed (by rw [session?, phase]) (Session.queue_of_untaken untaken) closed
  | list =>
      rw [past_beginList]
      exact .nothing
  | timeOut =>
      rw [past_attemptFailed]
      exact .nothing
  | take _ phase taken => exact leavesBehind_consume phase taken
  | closed _ phase untaken closed =>
      have left : i.sessions = _ := sessions_of_watching phase
      rw [past_rewatch]
      change LeavesBehind i i.sessions
      rw [left]
      exact .closed (by rw [session?, phase]) (Session.queue_of_untaken untaken) closed
  | giveUp | stop | discard | retry | watch | drain => exact .nothing

theorem leavesBehind_moveWatch {move : Session → Option (Session × Option SearchArgs)}
    (h : i.moveWatch? move = some (j, args)) : LeavesBehind i j.past := by
  unfold moveWatch? at h
  split at h
  · obtain ⟨⟨t, asked⟩, _, same⟩ := Option.map_eq_some_iff.mp h
    cases same
    exact .nothing
  · obtain ⟨⟨t, asked⟩, _, same⟩ := Option.map_eq_some_iff.mp h
    cases same
    exact .nothing
  · cases h

theorem leavesBehind_answer (i : Informer) (now : Nat) (present : Instant)
    (response : Except TransportFault SearchResponse) :
    LeavesBehind i (i.answer now present response).past := by
  have heard := heard_answer i now present response
  generalize i.answer now present response = j at heard
  cases heard with
  | list =>
      rw [past_takeOver]
      exact .nothing
  | failed =>
      rw [past_attemptFailed]
      exact .nothing
  | ignored | watch | drain => exact .nothing

/-- **An informer goes away from a session when it has taken its fault, or when the session is
closed and has nothing more for it.** -/
theorem leavesBehind_follow {cue : Cue} (h : i.follow? cue = some (j, args)) :
    LeavesBehind i j.past := by
  cases cue with
  | move now present => exact leavesBehind_turn (turn_of_move h)
  | expire now => exact leavesBehind_moveWatch h
  | proceed now => exact leavesBehind_moveWatch h
  | answer now present response =>
      cases h
      exact i.leavesBehind_answer now present response
  | shutDown =>
      cases h
      exact .nothing

theorem attends_opened (feed : Feed) (labels : Catalog String) (policy : BackoffPolicy) (now : Nat)
    (stopping : Bool) : (opened feed labels policy now stopping).Attends where
  sessions s member := by cases member
  past s member := by cases member

theorem Attends.follow {cue : Cue} (h : i.follow? cue = some (j, args)) (attends : i.Attends) :
    j.Attends := by
  have sessions := (evolves_follow h).forall
    (fun _ _ _ now present planned => Session.attended_start planned now present)
    (fun _ _ step => step.attended) attends.sessions
  refine ⟨sessions, ?_⟩
  have left := leavesBehind_follow h
  generalize j.past = past at left ⊢
  cases left with
  | nothing => exact attends.past
  | failed phase taken =>
      have attended := attends.sessions _ (mem_sessions_of_watching phase)
      exact List.forall_mem_cons.mpr ⟨attended.lawful.ended_of_fault taken, attends.past⟩
  | @closed s own empty closed =>
      have attended := attends.sessions s (by simp [Informer.sessions, own])
      exact List.forall_mem_cons.mpr ⟨⟨attended.ended_of_closed closed, empty⟩, attends.past⟩

/-- **The sessions that an informer has left behind have ended, and nothing waits for it there, in
every run.** -/
theorem attends_of_run {cues : List Cue} (run : i.run? cues = some k) (attends : i.Attends) :
    k.Attends :=
  run?_preserves (fun h attends => attends.follow h) run attends

end Informer

end BugFeed
