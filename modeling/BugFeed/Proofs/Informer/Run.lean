import BugFeed.Proofs.Watch.Delivery
import BugFeed.Informer

/-!
# Runs of an informer

An informer and the session of its watch work side by side. A run is a list of cues: a move of the
informer, a move of its session at any time, whatever waits in the queue, the answer to a search,
and the request to shut down. So a run may end a lifetime with events in the queue or with a batch
half handed over, fail a search, or let a list be tried again.

All that an informer does at a move of its own is one of a few turns, each with its conditions
(`Turn`, `turn_of_move`). With the moves of its session these are its acts (`Act`, `act_of_follow`).
Opening a watch, taking a list over and acting on an event have few outcomes each
(`openWatch_cases`, `takeOver_cases`, `consume_cases`). What a property needs to survive a run is
that each cue preserves it (`run?_preserves`).
-/

namespace BugFeed

set_option autoImplicit false

namespace Informer

/-! ## Cues -/

/-- One thing that an informer does or that happens to it. -/
inductive Cue where
  /-- The informer moves. -/
  | move (now : Nat) (present : Instant)
  /-- The lifetime of its watch ends. -/
  | expire (now : Nat)
  /-- Its watch goes on with its work. -/
  | proceed (now : Nat)
  /-- The answer to its search comes. -/
  | answer (now : Nat) (present : Instant) (response : Except TransportFault SearchResponse)
  /-- Someone asks it to shut down. -/
  | shutDown

/-- The informer after a move of its session. -/
def moveWatch? (i : Informer) (move : Session → Option (Session × Option SearchArgs)) :
    Option (Informer × Option SearchArgs) :=
  match i.phase with
  | .watching s => (move s).map fun (t, args) => ({ i with phase := .watching t }, args)
  | .draining s => (move s).map fun (t, args) => ({ i with phase := .draining t }, args)
  | _ => none

/-- The informer after a cue, if it can follow it, and the search that it begins. -/
def follow? (i : Informer) : Cue → Option (Informer × Option SearchArgs)
  | .move now present => i.move? now present
  | .expire now => i.moveWatch? fun s => (s.expire? now).map fun t => (t, none)
  | .proceed now => i.moveWatch? fun s => s.proceed? now
  | .answer now present response => some (i.answer now present response, none)
  | .shutDown => some (i.shutDown, none)

/-- The informer after a run, if it can follow all its cues. -/
def run? (i : Informer) : List Cue → Option Informer
  | [] => some i
  | cue :: cues => (i.follow? cue).bind fun (j, _) => j.run? cues

/-- An informer with an empty store that has just been started. -/
def opened (feed : Feed) (labels : Catalog String) (policy : BackoffPolicy) (now : Nat)
    (stopping : Bool) : Informer :=
  ({ feed := feed, labels := labels, policy := policy } : Informer).start now stopping

/-- What every cue preserves, every run preserves. -/
theorem run?_preserves {P : Informer → Prop}
    (step : ∀ {i j : Informer} {cue : Cue} {args : Option SearchArgs},
      i.follow? cue = some (j, args) → P i → P j)
    {i j : Informer} {cues : List Cue} (run : i.run? cues = some j) (hi : P i) : P j := by
  induction cues generalizing i with
  | nil =>
      cases run
      exact hi
  | cons cue cues ih =>
      obtain ⟨⟨u, args⟩, first, rest⟩ := Option.bind_eq_some_iff.mp run
      exact ih rest (step first hi)

/-- What every cue of a run preserves, the run preserves. -/
theorem run?_preserves_of_mem {P : Informer → Prop} {cues : List Cue}
    (step : ∀ {i j : Informer} {cue : Cue} {args : Option SearchArgs}, cue ∈ cues →
      i.follow? cue = some (j, args) → P i → P j)
    {i j : Informer} (run : i.run? cues = some j) (hi : P i) : P j := by
  induction cues generalizing i with
  | nil =>
      cases run
      exact hi
  | cons cue cues ih =>
      obtain ⟨⟨u, args⟩, first, rest⟩ := Option.bind_eq_some_iff.mp run
      refine ih ?_ rest (step List.mem_cons_self first hi)
      intro i j later args member
      exact step (List.mem_cons_of_mem _ member)

theorem run?_cons {i j : Informer} {cue : Cue} {args : Option SearchArgs}
    (first : i.follow? cue = some (j, args)) (cues : List Cue) :
    i.run? (cue :: cues) = j.run? cues := by
  rw [run?, first, Option.bind_some]

theorem follow?_answer {i j : Informer} {now : Nat} {present : Instant}
    {response : Except TransportFault SearchResponse} (heard : i.answer now present response = j) :
    i.follow? (.answer now present response) = some (j, none) :=
  congrArg (fun j => some (j, none)) heard

/-! ## Acts -/

/-- Everything that an informer or its session does by itself, with the search that begins. -/
inductive Act (i : Informer) (now : Nat) (present : Instant) :
    Informer → Option SearchArgs → Prop where
  /-- A pause is over. -/
  | list {wake : Nat} (phase : i.phase = .resting wake) :
      Act i now present (i.beginList now present).1 (i.beginList now present).2
  /-- An attempt to list takes too long. -/
  | timeOut {retry : Retry} {deadline : Nat} {anchor : ResourceVersion}
      (phase : i.phase = .listing retry deadline anchor) :
      Act i now present (i.attemptFailed now retry retry.timedOut) none
  /-- The list is tried again. -/
  | retry {retry : Retry} {wake : Nat} (phase : i.phase = .retrying retry wake) :
      Act i now present (i.ask now present retry).1 (i.ask now present retry).2
  /-- The shutdown finds no watch. -/
  | giveUp (without : i.session? = none) : Act i now present (i.finish now (.ok ())) none
  /-- An event is acted on. -/
  | take {s t : Session} {event : WatchEvent} (phase : i.phase = .watching s)
      (taken : s.take? now = some (event, t)) :
      Act i now present ({ i with phase := .watching t }.consume now present event) none
  /-- The watch has ended without a fault. -/
  | closed {s : Session} (phase : i.phase = .watching s) (empty : s.queue = [])
      (closed : s.isClosed = true) :
      Act i now present ((i.note now (.closed none)).rewatch now present) none
  /-- The session of the watch moves. -/
  | watch {s t : Session} {args : Option SearchArgs} (phase : i.phase = .watching s)
      (move : s.Move now t args) : Act i now present { i with phase := .watching t } args
  /-- The shutdown stops the watch. -/
  | stop {s : Session} (phase : i.phase = .watching s) :
      Act i now present { i with phase := .draining (s.stop now) } none
  /-- An event is discarded. -/
  | discard {s t : Session} {event : WatchEvent} (phase : i.phase = .draining s)
      (taken : s.take? now = some (event, t)) :
      Act i now present ({ i with phase := .draining t }.note now (.discarded event)) none
  /-- The watch that was shut down has ended. -/
  | drained {s : Session} (phase : i.phase = .draining s) :
      Act i now present (i.leave.finish now (.ok ())) none
  /-- The session of the watch that was shut down moves. -/
  | drain {s t : Session} {args : Option SearchArgs} (phase : i.phase = .draining s)
      (move : s.Move now t args) : Act i now present { i with phase := .draining t } args

variable {i j : Informer} {now : Nat} {present : Instant} {args : Option SearchArgs}

/-- A session that moves at a time makes one of its moves. -/
theorem move_of_moves {s t : Session} (h : s.move? now = some (t, args)) : s.Move now t args := by
  have expired : ∀ {u : Session} {asked : Option SearchArgs},
      (s.expire? now).map (fun t => (t, none)) = some (u, asked) → s.Move now u asked := by
    intro u asked first
    obtain ⟨v, hv, same⟩ := Option.map_eq_some_iff.mp first
    cases same
    exact Session.move_of_expire hv
  simp only [Session.move?] at h
  split at h
  · rcases Option.or_eq_some_iff.mp h with first | ⟨_, second⟩
    · exact Session.move_of_proceed first
    · exact expired second
  · rcases Option.or_eq_some_iff.mp h with first | ⟨_, second⟩
    · exact expired first
    · exact Session.move_of_proceed second

/-- Everything that an informer does at a move of its own, with the conditions under which it does
so. -/
inductive Turn (i : Informer) (now : Nat) (present : Instant) :
    Informer → Option SearchArgs → Prop where
  /-- The shutdown finds no watch. -/
  | giveUp (stopping : i.stopping = true) (running : i.isRunning = true)
      (without : i.session? = none) : Turn i now present (i.finish now (.ok ())) none
  /-- The shutdown stops the watch. -/
  | stop {s : Session} (stopping : i.stopping = true) (phase : i.phase = .watching s) :
      Turn i now present { i with phase := .draining (s.stop now) } none
  /-- An event is discarded. -/
  | discard {s t : Session} {event : WatchEvent} (stopping : i.stopping = true)
      (phase : i.phase = .draining s) (taken : s.take? now = some (event, t)) :
      Turn i now present ({ i with phase := .draining t }.note now (.discarded event)) none
  /-- The watch that was shut down has ended. -/
  | drained {s : Session} (stopping : i.stopping = true) (phase : i.phase = .draining s)
      (untaken : s.take? now = none) (closed : s.isClosed = true) :
      Turn i now present (i.leave.finish now (.ok ())) none
  /-- A pause is over. -/
  | list {wake : Nat} (running : i.stopping = false) (phase : i.phase = .resting wake)
      (due : wake ≤ now) :
      Turn i now present (i.beginList now present).1 (i.beginList now present).2
  /-- An attempt to list takes too long. -/
  | timeOut {retry : Retry} {deadline : Nat} {anchor : ResourceVersion}
      (running : i.stopping = false) (phase : i.phase = .listing retry deadline anchor)
      (due : deadline ≤ now) : Turn i now present (i.attemptFailed now retry retry.timedOut) none
  /-- The list is tried again. -/
  | retry {retry : Retry} {wake : Nat} (running : i.stopping = false)
      (phase : i.phase = .retrying retry wake) (due : wake ≤ now) :
      Turn i now present (i.ask now present retry).1 (i.ask now present retry).2
  /-- An event is acted on. -/
  | take {s t : Session} {event : WatchEvent} (running : i.stopping = false)
      (phase : i.phase = .watching s) (taken : s.take? now = some (event, t)) :
      Turn i now present ({ i with phase := .watching t }.consume now present event) none
  /-- The watch has ended without a fault. -/
  | closed {s : Session} (running : i.stopping = false) (phase : i.phase = .watching s)
      (untaken : s.take? now = none) (closed : s.isClosed = true) :
      Turn i now present ((i.note now (.closed none)).rewatch now present) none
  /-- The session of the watch moves. -/
  | watch {s t : Session} {args : Option SearchArgs} (running : i.stopping = false)
      (phase : i.phase = .watching s) (untaken : s.take? now = none) (open_ : s.isClosed = false)
      (moved : s.move? now = some (t, args)) :
      Turn i now present { i with phase := .watching t } args
  /-- The session of the watch that was shut down moves. -/
  | drain {s t : Session} {args : Option SearchArgs} (phase : i.phase = .draining s)
      (moved : s.move? now = some (t, args)) :
      Turn i now present { i with phase := .draining t } args

theorem turn_of_settleDown (stopping : i.stopping = true)
    (h : i.settleDown? now = some (j, args)) : Turn i now present j args := by
  unfold settleDown? at h
  split at h
  · cases h
  · cases h
  · cases h
  · rename_i wake phase
    cases h
    exact .giveUp stopping (by rw [isRunning, phase]) (by rw [session?, phase])
  · rename_i retry deadline anchor phase
    cases h
    exact .giveUp stopping (by rw [isRunning, phase]) (by rw [session?, phase])
  · rename_i retry wake phase
    cases h
    exact .giveUp stopping (by rw [isRunning, phase]) (by rw [session?, phase])
  · rename_i s phase
    cases h
    exact .stop stopping phase
  · rename_i s phase
    split at h
    · rename_i event t taken
      cases h
      exact .discard stopping phase taken
    · rename_i untaken
      split at h
      · rename_i closed
        cases h
        exact .drained stopping phase untaken closed
      · obtain ⟨⟨t, asked⟩, moved, same⟩ := Option.map_eq_some_iff.mp h
        cases same
        exact .drain phase moved

theorem turn_of_proceed (running : i.stopping = false)
    (h : i.proceed? now present = some (j, args)) : Turn i now present j args := by
  unfold proceed? at h
  split at h
  · cases h
  · cases h
  · cases h
  · rename_i wake phase
    split at h
    · rename_i due
      have turn : Turn i now present _ _ := .list running phase due
      rwa [Option.some.inj h] at turn
    · cases h
  · rename_i retry deadline anchor phase
    split at h
    · rename_i due
      cases h
      exact .timeOut running phase due
    · cases h
  · rename_i retry wake phase
    split at h
    · rename_i due
      cases h
      exact .retry running phase due
    · cases h
  · rename_i s phase
    split at h
    · rename_i event t taken
      cases h
      exact .take running phase taken
    · rename_i untaken
      split at h
      · rename_i closed
        cases h
        exact .closed running phase untaken closed
      · rename_i unclosed
        obtain ⟨⟨t, asked⟩, moved, same⟩ := Option.map_eq_some_iff.mp h
        cases same
        exact .watch running phase untaken (eq_false_of_ne_true unclosed) moved
  · rename_i s phase
    obtain ⟨⟨t, asked⟩, moved, same⟩ := Option.map_eq_some_iff.mp h
    cases same
    exact .drain phase moved

/-- **What an informer does at a move of its own is one of these.** -/
theorem turn_of_move (h : i.follow? (.move now present) = some (j, args)) :
    Turn i now present j args := by
  rw [follow?, move?] at h
  split at h
  · rename_i stopping
    exact turn_of_settleDown stopping h
  · rename_i running
    exact turn_of_proceed (eq_false_of_ne_true running) h

theorem Turn.act (turn : Turn i now present j args) : Act i now present j args := by
  cases turn with
  | giveUp _ _ without => exact .giveUp without
  | stop _ phase => exact .stop phase
  | discard _ phase taken => exact .discard phase taken
  | drained _ phase => exact .drained phase
  | list _ phase => exact .list phase
  | timeOut _ phase => exact .timeOut phase
  | retry _ phase => exact .retry phase
  | take _ phase taken => exact .take phase taken
  | closed _ phase untaken closed => exact .closed phase (Session.queue_of_untaken untaken) closed
  | watch _ phase _ _ moved => exact .watch phase (move_of_moves moved)
  | drain phase moved => exact .drain phase (move_of_moves moved)

theorem act_of_moveWatch {move : Session → Option (Session × Option SearchArgs)}
    (makes : ∀ {s t : Session} {asked : Option SearchArgs}, move s = some (t, asked) →
      s.Move now t asked)
    (h : i.moveWatch? move = some (j, args)) : Act i now present j args := by
  unfold moveWatch? at h
  split at h
  · rename_i s phase
    obtain ⟨⟨t, asked⟩, moved, same⟩ := Option.map_eq_some_iff.mp h
    cases same
    exact .watch phase (makes moved)
  · rename_i s phase
    obtain ⟨⟨t, asked⟩, moved, same⟩ := Option.map_eq_some_iff.mp h
    cases same
    exact .drain phase (makes moved)
  · cases h

theorem act_of_move (h : i.follow? (.move now present) = some (j, args)) :
    Act i now present j args :=
  (turn_of_move h).act

theorem act_of_expire_watch (h : i.follow? (.expire now) = some (j, args)) :
    Act i now present j args := by
  refine act_of_moveWatch ?_ h
  intro s t asked moved
  obtain ⟨u, expired, same⟩ := Option.map_eq_some_iff.mp moved
  cases same
  exact Session.move_of_expire expired

theorem act_of_proceed_watch (h : i.follow? (.proceed now) = some (j, args)) :
    Act i now present j args :=
  act_of_moveWatch Session.move_of_proceed h

/-- **What an informer does at a cue is one of its acts, or what the cue brings from outside.** -/
theorem act_of_follow {cue : Cue} (h : i.follow? cue = some (j, args)) :
    (∃ now present, Act i now present j args) ∨
      (cue = .shutDown ∧ args = none ∧ j = i.shutDown) ∨
      ∃ now present response, cue = .answer now present response ∧ args = none ∧
        j = i.answer now present response := by
  cases cue with
  | move now present => exact .inl ⟨now, present, act_of_move h⟩
  | expire now => exact .inl ⟨now, .epoch, act_of_expire_watch h⟩
  | proceed now => exact .inl ⟨now, .epoch, act_of_proceed_watch h⟩
  | answer now present response =>
      cases h
      exact .inr (.inr ⟨now, present, response, rfl, rfl, rfl⟩)
  | shutDown =>
      cases h
      exact .inr (.inl ⟨rfl, rfl, rfl⟩)

/-! ## Parts of acts -/

/-- An informer that begins to list searches, or is done because no attempt is allowed. -/
theorem beginList_cases (i : Informer) (now : Nat) (present : Instant) :
    i.beginList now present =
        ((i.count (.cycled .list)).note now .began).ask now present (Retry.start i.policy) ∨
      i.beginList now present =
        (((i.count (.cycled .list)).note now .began).finish now (.error Retry.notTried), none) := by
  rw [beginList]
  split
  · exact .inl rfl
  · exact .inr rfl

/-- An informer whose attempt to list failed pauses before the next one, or is done. -/
theorem attemptFailed_cases (i : Informer) (now : Nat) (retry : Retry) (fault : Fault) :
    (∃ next wake, i.attemptFailed now retry fault =
        { i.note now (.failed fault) with phase := .retrying next wake }) ∨
      i.attemptFailed now retry fault = (i.note now (.failed fault)).finish now (.error fault) := by
  rw [attemptFailed]
  split
  · exact .inl ⟨_, _, rfl⟩
  · exact .inr rfl

/-- What a feed plans: its own filters and shown bugs, from the second after the version on. -/
theorem plan_cases {feed : Feed} {options : ListOptions} {plan : WatchPlan}
    (h : feed.plan options = .ok plan) :
    plan.args = feed.argsFor options ∧ plan.includes = feed.includes ∧
      ∃ version, ResourceVersion.parse (options.version.getD "") = .ok version ∧
        plan.start = Feed.startAfter version := by
  rw [Feed.plan] at h
  cases parsed : ResourceVersion.parse (options.version.getD "") with
  | error fault =>
      rw [parsed] at h
      cases h
  | ok version =>
      rw [parsed] at h
      cases h
      exact ⟨rfl, rfl, version, rfl, rfl⟩

/-- A feed opens the watch that it plans, or none because the plan has a flaw. -/
theorem watch_cases (feed : Feed) (options : ListOptions) (now : Nat) (present : Instant) :
    (∃ plan, feed.plan options = .ok plan ∧ plan.capacity ≤ Session.longestQueue ∧
        feed.watch options now present = .ok (.start now present plan)) ∨
      (∃ fault, feed.watch options now present = .error (.token fault)) ∨
      feed.watch options now present = .error .queueTooLong := by
  rw [Feed.watch]
  cases planned : feed.plan options with
  | error fault => exact .inr (.inl ⟨fault, rfl⟩)
  | ok plan =>
      by_cases fits : plan.capacity ≤ Session.longestQueue
      · exact .inl ⟨plan, rfl, fits, if_pos fits⟩
      · exact .inr (.inr (if_neg fits))

/-- An informer that opens a watch watches, or is done, or breaks down. -/
theorem openWatch_cases (i : Informer) (now : Nat) (present : Instant) :
    (∃ plan, i.feed.plan i.watchOptions = .ok plan ∧
        i.openWatch now present =
          { i with phase := .watching (.start now present plan) }.note now (.opened i.version)) ∨
      (∃ fault, i.openWatch now present = i.finish now (.error fault)) ∨
      i.openWatch now present = { i with phase := .broken } := by
  have cases := watch_cases i.feed i.watchOptions now present
  unfold openWatch
  generalize i.feed.watch i.watchOptions now present = watch at cases ⊢
  rcases cases with ⟨plan, planned, _, rfl⟩ | ⟨fault, rfl⟩ | rfl
  · exact .inl ⟨plan, planned, rfl⟩
  · exact .inr (.inl ⟨.token fault, rfl⟩)
  · exact .inr (.inr rfl)

/-- An informer that takes a list over opens a watch from its version on, or is done. -/
theorem takeOver_cases (i : Informer) (now : Nat) (present : Instant) (list : BugList) :
    (∃ version, ResourceVersion.parse list.version = .ok version ∧
        i.takeOver now present list =
          ({ i with store := .replace list.items, synced := true, version := version }.note now
            (.listed list)).openWatch now present) ∨
      ∃ fault, i.takeOver now present list = i.finish now (.error fault) := by
  rw [takeOver]
  cases ResourceVersion.parse list.version with
  | error fault => exact .inr ⟨.token fault, rfl⟩
  | ok version => exact .inl ⟨version, rfl, rfl⟩

/-- An informer takes over what an event about a bug reports. An event about a fault ends the
watch: another one follows, or a pause before a new list. -/
theorem consume_cases (i : Informer) (now : Nat) (present : Instant) (event : WatchEvent) :
    (∃ b, event.bug? = some b ∧ i.consume now present event = i.absorb now event b) ∨
      ∃ status, event = .error status ∧
        (i.consume now present event =
            (i.note now (.closed (some status))).rewatch now present ∨
          i.consume now present event = (i.note now (.closed (some status))).rest now) := by
  cases event with
  | added b => exact .inl ⟨b, rfl, rfl⟩
  | modified b => exact .inl ⟨b, rfl, rfl⟩
  | error status =>
      refine .inr ⟨status, rfl, ?_⟩
      by_cases resumable : status.isResumable = true
      · exact .inl (if_pos resumable)
      · exact .inr (if_neg resumable)

/-- Everything that an answer does to an informer. -/
inductive Heard (i : Informer) (now : Nat) (present : Instant) :
    Except TransportFault SearchResponse → Informer → Prop where
  /-- Nobody looks at it. -/
  | ignored {response : Except TransportFault SearchResponse} : Heard i now present response i
  /-- It is the list. -/
  | list {retry : Retry} {deadline : Nat} {anchor : ResourceVersion} {found : SearchResponse}
      (phase : i.phase = .listing retry deadline anchor) :
      Heard i now present (.ok found)
        (i.takeOver now present (.ofResponse found i.feed.includes anchor))
  /-- The attempt to list has failed. -/
  | failed {retry : Retry} {deadline : Nat} {anchor : ResourceVersion} {fault : TransportFault}
      (phase : i.phase = .listing retry deadline anchor) :
      Heard i now present (.error fault) (i.attemptFailed now retry (.transport fault))
  /-- The watch looks at it. -/
  | watch {s t : Session} {response : Except TransportFault SearchResponse}
      (phase : i.phase = .watching s) (hears : s.Hears now response t) :
      Heard i now present response { i with phase := .watching t }
  /-- The watch that was shut down looks at it. -/
  | drain {s t : Session} {response : Except TransportFault SearchResponse}
      (phase : i.phase = .draining s) (hears : s.Hears now response t) :
      Heard i now present response { i with phase := .draining t }

theorem heard_answer (i : Informer) (now : Nat) (present : Instant)
    (response : Except TransportFault SearchResponse) :
    Heard i now present response (i.answer now present response) := by
  rw [answer]
  split
  · rename_i retry deadline anchor phase
    split
    · exact .ignored
    · cases response with
      | error fault => exact .failed phase
      | ok found => exact .list phase
  · rename_i s phase
    exact .watch phase (s.hears_answer now response)
  · rename_i s phase
    exact .drain phase (s.hears_answer now response)
  · exact .ignored

/-- An accepted answer to the search of a watch, with its batch. -/
theorem answer_accepted {i : Informer} {s : Session} (watching : i.phase = .watching s)
    (now : Nat) (present : Instant) {found : SearchResponse} {next : ResourceVersion}
    {batch : List Bug} (phase : s.phase = .searching) (running : s.signal.isStopped = false)
    (latest : found.latestChange? = some next) (fresh : next.isAfter s.watermark = true)
    (hbatch : s.plan.batch s.watermark found = batch) :
    i.answer now present (.ok found) =
      { i with phase := .watching { s.note now (.answered (.ok found)) with
        phase := .delivering batch none next } } := by
  have heard := Session.follow?_accepted s now phase running latest fresh hbatch
  simp only [Session.follow?, Option.some.injEq] at heard
  rw [answer, watching]
  simp only
  rw [heard]

end Informer

end BugFeed
