import BugFeed.Proofs.Informer.Frame
import BugFeed.Proofs.Informer.Sessions

/-!
# Shutting an informer down

An informer that has been asked to shut down does nothing for its feed any more. If it has no watch
it is done at once; if it has one it stops it, discards what the watch still hands over, and is done
when the watch has ended (`Settle`, `settle_of_follow`). The watch may still have to hand over the
changes of a second that it had begun, through a queue that is full, but the informer keeps
discarding, so one of the two always has a step and there are only so many (`Shut.moves_le`,
`Shut.returns`).

Time passes only while nobody has a step. So all of this happens at the time of the request, and a
search begins later than that only if it begins after the informer is done, which none does
(`Timely`, `Shut.search_at_once`).
-/

namespace BugFeed

set_option autoImplicit false

/-- Something that an informer does once it has been asked to shut down. -/
def InformerNote.settles : InformerNote → Prop
  | .discarded _ => True
  | .finished outcome => outcome = .ok ()
  | _ => False

namespace Informer

variable {i j k : Informer} {now : Nat} {present : Instant} {args : Option SearchArgs}

/-- Whether the informer moves by itself at a cue. -/
def Cue.isMove : Cue → Bool
  | .move _ _ => true
  | .expire _ | .proceed _ | .answer _ _ _ | .shutDown => false

/-! ## What happens after the request -/

/-- Everything that happens to an informer that has been asked to shut down, whether it moves by
itself, and the search that begins. -/
inductive Settle (i : Informer) : (own : Bool) → Informer → Option SearchArgs → Prop where
  /-- Nothing comes of it. -/
  | nothing : Settle i false i none
  /-- There is no watch. -/
  | giveUp (now : Nat) (running : i.isRunning = true) (without : i.session? = none) :
      Settle i true (i.finish now (.ok ())) none
  /-- The watch works on until the informer stops it. -/
  | work {s t : Session} {args : Option SearchArgs} (phase : i.phase = .watching s)
      (step : s.Step t) : Settle i false { i with phase := .watching t } args
  /-- The informer stops the watch. -/
  | stop {s : Session} (now : Nat) (phase : i.phase = .watching s) :
      Settle i true { i with phase := .draining (s.stop now) } none
  /-- The informer discards an event. -/
  | discard {s t : Session} {event : WatchEvent} {now : Nat} (phase : i.phase = .draining s)
      (taken : s.take? now = some (event, t)) :
      Settle i true ({ i with phase := .draining t }.note now (.discarded event)) none
  /-- The watch goes on towards its end. -/
  | settle {own : Bool} {s t : Session} {now : Nat} (phase : i.phase = .draining s)
      (proceeds : s.follow? (.proceed now) = some t) :
      Settle i own { i with phase := .draining t } none
  /-- An answer finds the watch stopped. -/
  | late {s : Session} (now : Nat) (phase : i.phase = .draining s)
      (searching : s.phase = .searching) :
      Settle i false { i with phase := .draining (s.leave now) } none
  /-- The watch has ended. -/
  | drained {s : Session} (now : Nat) (phase : i.phase = .draining s) :
      Settle i true (i.leave.finish now (.ok ())) none

theorem args_of_stopped {s t : Session} (stopped : s.signal.isStopped = true)
    (proceeds : s.proceed? now = some (t, args)) : args = none := by
  cases Session.move_of_proceed proceeds with
  | ask running =>
      rw [stopped] at running
      cases running
  | leave | conclude | deliver | abandon | report | vanish | expire => rfl

theorem expire?_of_stopped {s : Session} (stopped : s.signal.isStopped = true) (now : Nat) :
    s.expire? now = none := by
  simp [Session.expire?, stopped]

/-- A session that has been stopped moves by going on with its work. -/
theorem move?_of_stopped {s : Session} (stopped : s.signal.isStopped = true) (now : Nat) :
    s.move? now = s.proceed? now := by
  simp [Session.move?, expire?_of_stopped stopped]

theorem settle_of_turn (stopping : i.stopping = true)
    (stopped : ∀ s, i.phase = .draining s → s.signal.isStopped = true)
    (turn : Turn i now present j args) : Settle i true j args := by
  cases turn with
  | giveUp _ running without => exact .giveUp now running without
  | stop _ phase => exact .stop now phase
  | discard _ phase taken => exact .discard phase taken
  | drained _ phase => exact .drained now phase
  | drain phase moved =>
      rw [move?_of_stopped (stopped _ phase)] at moved
      cases args_of_stopped (stopped _ phase) moved
      exact .settle phase (by rw [Session.follow?, moved]; rfl)
  | list running | timeOut running | retry running | take running | closed running
  | watch running =>
      rw [stopping] at running
      cases running

theorem settle_of_answer (stopping : i.stopping = true)
    (stopped : ∀ s, i.phase = .draining s → s.signal.isStopped = true) (now : Nat)
    (present : Instant) (response : Except TransportFault SearchResponse) :
    Settle i false (i.answer now present response) none := by
  have heard := heard_answer i now present response
  cases phase : i.phase with
  | watching s =>
      simp only [answer, phase]
      exact .work phase (.hears (s.hears_answer now response))
  | draining s =>
      simp only [answer, phase]
      have hears := s.hears_answer now response
      generalize s.answer now response = t at hears
      cases hears with
      | unasked =>
          rw [← phase]
          exact .nothing
      | late searching => exact .late now phase searching
      | picked _ running =>
          rw [stopped s phase] at running
          cases running
  | listing retry deadline anchor =>
      simp only [answer, phase, stopping, if_true]
      exact .nothing
  | idle | resting | retrying | finished | broken =>
      simp only [answer, phase]
      exact .nothing

/-- **An informer that has been asked to shut down gives up, or stops its watch and discards what
the watch still hands over.** -/
theorem settle_of_follow {cue : Cue} (stopping : i.stopping = true)
    (stopped : ∀ s, i.phase = .draining s → s.signal.isStopped = true)
    (h : i.follow? cue = some (j, args)) : Settle i cue.isMove j args := by
  cases cue with
  | move now present => exact settle_of_turn stopping stopped (turn_of_move h)
  | expire now =>
      simp only [follow?, moveWatch?] at h
      split at h
      · rename_i s phase
        obtain ⟨⟨t, asked⟩, moved, same⟩ := Option.map_eq_some_iff.mp h
        obtain ⟨u, expired, unasked⟩ := Option.map_eq_some_iff.mp moved
        cases unasked
        cases same
        exact .work phase (.move (Session.move_of_expire expired))
      · rename_i s phase
        simp [expire?_of_stopped (stopped s phase)] at h
      · cases h
  | proceed now =>
      simp only [follow?, moveWatch?] at h
      split at h
      · rename_i s phase
        obtain ⟨⟨t, asked⟩, moved, same⟩ := Option.map_eq_some_iff.mp h
        cases same
        exact .work phase (.move (Session.move_of_proceed moved))
      · rename_i s phase
        obtain ⟨⟨t, asked⟩, moved, same⟩ := Option.map_eq_some_iff.mp h
        cases same
        cases args_of_stopped (stopped s phase) moved
        exact .settle phase (by rw [Session.follow?, moved]; rfl)
      · cases h
  | answer now present response =>
      cases h
      exact settle_of_answer stopping stopped now present response
  | shutDown =>
      cases h
      have same : i.shutDown = i := by
        rw [shutDown, ← stopping]
      rw [same]
      exact .nothing

/-! ## Watches that are drained -/

theorem not_draining_openWatch (i : Informer) (now : Nat) (present : Instant) (s : Session) :
    (i.openWatch now present).phase ≠ .draining s := by
  rcases i.openWatch_cases now present with ⟨plan, _, opened⟩ | ⟨fault, finished⟩ | broken
  · simp [opened, note]
  · simp [finished, finish, note]
  · simp [broken]

theorem not_draining_attemptFailed (i : Informer) (now : Nat) (retry : Retry) (fault : Fault)
    (s : Session) : (i.attemptFailed now retry fault).phase ≠ .draining s := by
  rcases i.attemptFailed_cases now retry fault with ⟨next, wake, retrying⟩ | finished
  · simp [retrying]
  · simp [finished, finish, note]

theorem not_draining_beginList (i : Informer) (now : Nat) (present : Instant) (s : Session) :
    (i.beginList now present).1.phase ≠ .draining s := by
  rcases i.beginList_cases now present with asked | finished
  · simp [asked, ask, note]
  · simp [finished, finish, note]

theorem not_draining_takeOver (i : Informer) (now : Nat) (present : Instant) (list : BugList)
    (s : Session) : (i.takeOver now present list).phase ≠ .draining s := by
  rcases i.takeOver_cases now present list with ⟨version, _, taken⟩ | ⟨fault, finished⟩
  · rw [taken]
    exact not_draining_openWatch _ now present s
  · simp [finished, finish, note]

theorem not_draining_consume {t : Session} (phase : i.phase = .watching t) (now : Nat)
    (present : Instant) (event : WatchEvent) (s : Session) :
    (i.consume now present event).phase ≠ .draining s := by
  rcases i.consume_cases now present event with ⟨b, _, absorbed⟩ | ⟨status, _, rewatched | rested⟩
  · simp [absorbed, absorb, note, phase]
  · rw [rewatched]
    exact not_draining_openWatch _ now present s
  · simp [rested, rest, note]

/-- A watch of which events are discarded has been stopped. -/
def Stopped (i : Informer) : Prop := ∀ s, i.phase = .draining s → s.signal.isStopped = true

theorem stopped_opened (feed : Feed) (labels : Catalog String) (policy : BackoffPolicy) (now : Nat)
    (stopping : Bool) : (opened feed labels policy now stopping).Stopped := by
  intro s phase
  cases phase

theorem stopped_of_move {s t : Session} (move : s.Move now t args)
    (stopped : s.signal.isStopped = true) : t.signal.isStopped = true := by
  cases move with
  | expire => exact s.isStopped_fire now .expired
  | leave => rwa [Session.signal_leave]
  | abandon => exact s.isStopped_fire now .finished
  | ask | conclude | deliver | report | vanish => exact stopped

theorem stopped_of_hears {s t : Session} {response : Except TransportFault SearchResponse}
    (hears : s.Hears now response t) (stopped : s.signal.isStopped = true) :
    t.signal.isStopped = true := by
  cases hears with
  | unasked => exact stopped
  | late => rwa [Session.signal_leave]
  | picked _ running =>
      rw [stopped] at running
      cases running

theorem Stopped.act (stopped : i.Stopped) (act : Act i now present j args) : j.Stopped := by
  intro s phase
  cases act with
  | list => exact absurd phase (i.not_draining_beginList now present s)
  | timeOut => exact absurd phase (i.not_draining_attemptFailed now _ _ s)
  | take => exact absurd phase (not_draining_consume rfl now present _ s)
  | closed => exact absurd phase (not_draining_openWatch _ now present s)
  | retry | giveUp | watch | drained => cases phase
  | @stop s' =>
      cases phase
      exact s'.isStopped_fire now .requested
  | discard before taken =>
      cases phase
      have kept := stopped _ before
      rw [(Session.queue_of_take taken).2]
      exact kept
  | drain before move =>
      cases phase
      exact stopped_of_move move (stopped _ before)

theorem Stopped.follow {cue : Cue} (h : i.follow? cue = some (j, args)) (stopped : i.Stopped) :
    j.Stopped := by
  rcases act_of_follow h with
    ⟨now, present, act⟩ | ⟨_, _, rfl⟩ | ⟨now, present, response, _, _, rfl⟩
  · exact stopped.act act
  · exact stopped
  · intro s phase
    have heard := heard_answer i now present response
    generalize i.answer now present response = j at heard phase
    cases heard with
    | ignored => exact stopped s phase
    | list => exact absurd phase (i.not_draining_takeOver now present _ s)
    | failed => exact absurd phase (i.not_draining_attemptFailed now _ _ s)
    | watch => cases phase
    | drain before hears =>
        cases phase
        exact stopped_of_hears hears (stopped _ before)

/-! ## Informers that were shut down -/

/-- An informer that has been asked to shut down before it was done. -/
structure Shut (i : Informer) : Prop where
  stopping : i.stopping = true
  attends : i.Attends
  stopped : i.Stopped
  course : i.isRunning = true ∨ i.outcome? = some (.ok ())

/-- How many moves an informer needs at most to be done, once it has been asked to shut down. -/
def unsettled (i : Informer) : Nat :=
  match i.phase with
  | .idle | .finished _ | .broken => 0
  | .resting _ | .listing _ _ _ | .retrying _ _ => 1
  | .watching s => s.remaining + 2
  | .draining s => s.remaining + 1

theorem remaining_stop (s : Session) (now : Nat) : (s.stop now).remaining = s.remaining := by
  rcases s.fire_cases now .requested with ⟨_, same⟩ | ⟨_, fired⟩
  · rw [Session.stop, same]
  · rw [Session.stop, fired]
    rfl

/-- What happens to an informer that was shut down and is done, or has stopped its watch, brings it
no further from its end, and its own moves bring it nearer. -/
theorem Settle.unsettled_lt {own : Bool} (settle : Settle i own j args) (stopped : i.Stopped)
    (unwatched : own = true ∨ ∀ s, i.phase ≠ .watching s) :
    j.unsettled + own.toNat ≤ i.unsettled := by
  cases settle with
  | nothing => exact Nat.le_refl _
  | giveUp now running without =>
      cases phase : i.phase <;> simp_all [isRunning, session?, unsettled, finish, note]
  | work phase => simp [phase] at unwatched
  | stop now phase => simp [unsettled, phase, remaining_stop]
  | discard phase taken =>
      have nearer := Session.remaining_lt_of_settles (stopped _ phase)
        (.take (by rw [Session.follow?, taken]; rfl))
      simpa [unsettled, phase, note] using Nat.succ_le_of_lt nearer
  | settle phase proceeds =>
      have nearer := Session.remaining_lt_of_settles (stopped _ phase) (.proceed proceeds)
      have most := own.toNat_le
      simp only [unsettled, phase]
      omega
  | @late s now phase searching =>
      have point : Session.Leaves s.phase := searching ▸ .searching
      have nearer := Nat.lt_of_le_of_lt (s.remaining_leave_le now) point.lt_remaining
      simp only [unsettled, phase, Bool.toNat_false]
      omega
  | drained now phase => simp [unsettled, phase, finish, note]

namespace Settle

variable {own : Bool} (settle : Settle i own j args)

include settle

theorem stopping : j.stopping = i.stopping := by
  cases settle <;> rfl

theorem log : ∃ notes, j.log = notes ++ i.log ∧ ∀ note ∈ notes, note.2.settles := by
  cases settle with
  | giveUp now => exact ⟨[(now, .finished (.ok ()))], rfl, by simp [InformerNote.settles]⟩
  | @discard s t event now => exact ⟨[(now, .discarded event)], rfl, by simp [InformerNote.settles]⟩
  | drained now => exact ⟨[(now, .finished (.ok ()))], rfl, by simp [InformerNote.settles]⟩
  | nothing | work | stop | settle | late => exact ⟨[], rfl, by simp⟩

theorem course : j.isRunning = true ∨ j.outcome? = some (.ok ()) ∨ j = i := by
  cases settle with
  | nothing => exact .inr (.inr rfl)
  | giveUp | drained => exact .inr (.inl rfl)
  | work | stop | discard | settle | late => exact .inl rfl

/-- Only a watch that has not been stopped yet begins a search. -/
theorem watching_of_search {search : SearchArgs} (asked : args = some search) :
    own = false ∧ ∃ s, i.phase = .watching s := by
  cases settle with
  | work phase => exact ⟨rfl, _, phase⟩
  | nothing | giveUp | stop | discard | settle | late | drained => cases asked

/-- A watch is never opened. -/
theorem unwatched (unwatched : ∀ s, i.phase ≠ .watching s) (s : Session) :
    j.phase ≠ .watching s := by
  cases settle with
  | nothing => exact unwatched s
  | work phase => exact absurd phase (unwatched _)
  | giveUp | stop | discard | settle | late | drained => nofun

/-- Nothing comes of anything once the informer is done. -/
theorem done (done : i.isRunning = false) : j = i ∧ args = none := by
  cases settle with
  | nothing => exact ⟨rfl, rfl⟩
  | giveUp _ running =>
      rw [done] at running
      cases running
  | work phase | stop _ phase | discard phase | settle phase | late _ phase | drained _ phase =>
      rw [isRunning, phase] at done
      cases done

end Settle

theorem isRunning_eq_false_of_outcome {outcome : Except Fault Unit}
    (done : i.outcome? = some outcome) : i.isRunning = false := by
  unfold outcome? at done
  split at done
  · rename_i phase
    rw [isRunning, phase]
  · cases done

namespace Shut

variable (shut : i.Shut)

include shut

theorem settle {cue : Cue} (h : i.follow? cue = some (j, args)) : Settle i cue.isMove j args :=
  settle_of_follow shut.stopping shut.stopped h

theorem follow {cue : Cue} (h : i.follow? cue = some (j, args)) : j.Shut where
  stopping := (shut.settle h).stopping.trans shut.stopping
  attends := shut.attends.follow h
  stopped := shut.stopped.follow h
  course := by
    rcases (shut.settle h).course with running | done | rfl
    · exact .inl running
    · exact .inr done
    · exact shut.course

theorem run {cues : List Cue} (run : i.run? cues = some k) : k.Shut :=
  run?_preserves (P := Shut) (fun h shut => shut.follow h) run shut

/-- An informer that was shut down notes no more than the events that it discards and its end. -/
theorem log {cues : List Cue} (run : i.run? cues = some k) :
    ∃ notes, k.log = notes ++ i.log ∧ ∀ note ∈ notes, note.2.settles := by
  induction cues generalizing i with
  | nil =>
      cases run
      exact ⟨[], rfl, by simp⟩
  | cons cue cues ih =>
      obtain ⟨⟨j, args⟩, first, rest⟩ := Option.bind_eq_some_iff.mp run
      obtain ⟨notes, now, settled⟩ := (shut.settle first).log
      obtain ⟨later, after, settles⟩ := ih (shut.follow first) rest
      refine ⟨later ++ notes, by rw [after, now, List.append_assoc], ?_⟩
      intro note member
      rcases List.mem_append.mp member with inside | inside
      · exact settles note inside
      · exact settled note inside

/-- The store and the mark of a list stay as they are. -/
theorem kept {cues : List Cue} (run : i.run? cues = some k) : k.kept = i.kept := by
  induction cues generalizing i with
  | nil =>
      cases run
      rfl
  | cons cue cues ih =>
      obtain ⟨⟨j, args⟩, first, rest⟩ := Option.bind_eq_some_iff.mp run
      rw [ih (shut.follow first) rest, kept_follow first, writes?_of_stopping shut.stopping]
      rfl

/-- An informer that was shut down can always move until it is done. -/
theorem exists_move (running : i.isRunning = true) (now : Nat) (present : Instant) :
    ∃ j, i.follow? (.move now present) = some (j, none) := by
  suffices moves : ∃ j args, i.follow? (.move now present) = some (j, args) by
    obtain ⟨j, args, moves⟩ := moves
    cases args with
    | none => exact ⟨j, moves⟩
    | some search => cases ((shut.settle moves).watching_of_search rfl).1
  cases phase : i.phase with
  | idle | finished | broken => simp [isRunning, phase] at running
  | resting | listing | retrying | watching =>
      simp only [follow?, move?, shut.stopping, if_true, settleDown?, phase]
      exact ⟨_, _, rfl⟩
  | draining s =>
      simp only [follow?, move?, shut.stopping, if_true, settleDown?, phase]
      split
      · exact ⟨_, _, rfl⟩
      · rename_i untaken
        split
        · exact ⟨_, _, rfl⟩
        · rename_i open_
          have attended := shut.attends.sessions s (mem_sessions_of_draining phase)
          have stopped := shut.stopped s phase
          have behind : s.phase ≠ .ended := fun ended => open_ (by simp [Session.isClosed,
            Session.hasEnded, ended])
          obtain ⟨t, settles⟩ := Session.exists_settles attended.room stopped (.inl behind) now
          cases settles with
          | take takes => simp [Session.follow?, untaken] at takes
          | proceed proceeds =>
              obtain ⟨⟨u, asked⟩, moved, _⟩ := Option.map_eq_some_iff.mp proceeds
              exact ⟨_, _, by rw [moveSession?, move?_of_stopped stopped, moved]; rfl⟩

/-- Moving it as long as it can brings an informer that was shut down to its end. -/
theorem returns (now : Nat) (present : Instant) :
    ∃ n k, i.run? (List.replicate n (.move now present)) = some k ∧ k.outcome? = some (.ok ()) := by
  generalize remaining : i.unsettled = n
  induction n using Nat.strong_induction_on generalizing i with
  | _ n ih =>
      rcases shut.course with running | done
      · obtain ⟨j, moves⟩ := shut.exists_move running now present
        have nearer := (shut.settle moves).unsettled_lt shut.stopped (.inl rfl)
        obtain ⟨m, k, run, done⟩ := ih j.unsettled (by simp [Cue.isMove] at nearer; omega)
          (shut.follow moves) rfl
        refine ⟨m + 1, k, ?_, done⟩
        rw [List.replicate_succ, run?_cons moves, run]
      · exact ⟨0, i, rfl, done⟩

/-- Once it has stopped its watch, an informer makes only so many moves until it is done, whatever
else happens. -/
theorem moves_le (unwatched : ∀ s, i.phase ≠ .watching s) {cues : List Cue}
    (run : i.run? cues = some k) : k.unsettled + cues.countP Cue.isMove ≤ i.unsettled := by
  induction cues generalizing i with
  | nil =>
      cases run
      exact Nat.le_refl _
  | cons cue cues ih =>
      obtain ⟨⟨j, args⟩, first, rest⟩ := Option.bind_eq_some_iff.mp run
      have settle := shut.settle first
      have step := settle.unsettled_lt shut.stopped (.inr unwatched)
      have later := ih (shut.follow first) (settle.unwatched unwatched) rest
      rw [List.countP_cons]
      cases moves : cue.isMove <;> simp [moves] at step ⊢ <;> omega

/-- An informer without a watch searches no more. -/
theorem searches_eq_nil (unwatched : ∀ s, i.phase ≠ .watching s) (cues : List Cue) :
    i.searches cues = [] := by
  induction cues generalizing i with
  | nil => rfl
  | cons cue cues ih =>
      cases first : i.follow? cue with
      | none => simp [searches, along, first]
      | some next =>
          obtain ⟨j, args⟩ := next
          have settle := shut.settle first
          cases args with
          | some search =>
              obtain ⟨_, s, phase⟩ := settle.watching_of_search rfl
              exact absurd phase (unwatched s)
          | none =>
              rw [searches, along_cons first, first]
              exact ih (shut.follow first) (settle.unwatched unwatched)

/-- Nothing comes of anything once the informer is done. -/
theorem run_done (done : i.isRunning = false) {cues : List Cue} (run : i.run? cues = some k) :
    k = i := by
  induction cues with
  | nil =>
      cases run
      rfl
  | cons cue cues ih =>
      obtain ⟨⟨j, args⟩, first, rest⟩ := Option.bind_eq_some_iff.mp run
      obtain ⟨rfl, _⟩ := (shut.settle first).done done
      exact ih rest

end Shut

/-! ## Time -/

/-- The time of a cue. A request has none: it comes at the time that it is. -/
def Cue.time? : Cue → Option Nat
  | .move now _ | .expire now | .proceed now | .answer now _ _ => some now
  | .shutDown => none

/-- A run of an informer from a time on in which time never goes back, and does not pass while the
informer has something to do. -/
def Timely (clock : Nat) (i : Informer) : List Cue → Prop
  | [] => True
  | cue :: cues =>
    let now := cue.time?.getD clock
    clock ≤ now ∧ (clock < now → ∀ present, i.move? clock present = none) ∧
      ∀ j args, i.follow? cue = some (j, args) → j.Timely now cues

/-- No time passes before an informer that was shut down is done. -/
theorem Shut.time_stands (shut : i.Shut) (running : i.isRunning = true) {clock : Nat} {cue : Cue}
    {cues : List Cue} (timely : i.Timely clock (cue :: cues)) : cue.time?.getD clock = clock := by
  obtain ⟨onward, idle, _⟩ := timely
  by_contra later
  obtain ⟨j, moves⟩ := shut.exists_move running clock .epoch
  have stuck := idle (by omega) .epoch
  rw [follow?, stuck] at moves
  cases moves

/-- A search that an informer begins after it has been asked to shut down begins at the time of the
request. -/
theorem Shut.search_at_once (shut : i.Shut) {clock : Nat} {before after : List Cue} {cue : Cue}
    {search : SearchArgs} (timely : i.Timely clock (before ++ cue :: after))
    (run : i.run? before = some k) (begins : k.follow? cue = some (j, some search)) :
    cue.time? = some clock := by
  induction before generalizing i with
  | nil =>
      cases run
      obtain ⟨_, s, phase⟩ := (shut.settle begins).watching_of_search rfl
      have stands := shut.time_stands (by rw [isRunning, phase]) timely
      cases cue with
      | shutDown => cases begins
      | move | expire | proceed | answer => exact congrArg some stands
  | cons first before ih =>
      obtain ⟨⟨u, args⟩, follows, rest⟩ := Option.bind_eq_some_iff.mp run
      cases running : i.isRunning with
      | true =>
          have stands := shut.time_stands running timely
          exact ih (shut.follow follows) (stands ▸ timely.2.2 u args follows) rest
      | false =>
          obtain ⟨_, s, phase⟩ := ((shut.run run).settle begins).watching_of_search rfl
          rw [shut.run_done running run] at phase
          rw [isRunning, phase] at running
          cases running

/-! ## The shutdown -/

theorem shut_of_shutDown (attends : i.Attends) (stopped : i.Stopped)
    (running : i.isRunning = true) : i.shutDown.Shut where
  stopping := rfl
  attends := ⟨attends.sessions, attends.past⟩
  stopped := stopped
  course := .inl running

theorem Shut.isBroken (shut : i.Shut) : i.isBroken = false := by
  rcases shut.course with running | done
  · cases phase : i.phase <;> simp_all [isRunning, Informer.isBroken]
  · cases phase : i.phase <;> simp_all [outcome?, Informer.isBroken]

theorem Shut.outcome (shut : i.Shut) {outcome : Except Fault Unit}
    (done : i.outcome? = some outcome) :
    outcome = .ok () ∧ ∀ s ∈ i.sessions, s.phase = .ended ∧ s.queue = [] := by
  have ended := isRunning_eq_false_of_outcome done
  refine ⟨?_, ?_⟩
  · rcases shut.course with running | well
    · rw [ended] at running
      cases running
    · rw [well] at done
      exact (Option.some.inj done).symm
  · have without : i.session? = none := by
      cases phase : i.phase <;> simp_all [outcome?, session?]
    rw [sessions_of_without without]
    exact shut.attends.past

theorem Shut.isRunning (shut : i.Shut) (going : i.outcome? = none) : i.isRunning = true := by
  rcases shut.course with running | done
  · exact running
  · rw [going] at done
    cases done

/-- **A shutdown freezes an informer, and brings it to its end at once.** Whatever an informer that
has been started is doing when somebody asks it to shut down:

* from then on it keeps its store and the mark of a list as they are, and all that it does is to
  discard events and to be done without an error; it breaks down no more;
* it can move at any time until it is done, a few moves are enough, and once it has stopped its
  watch there are only so many of them whatever else happens; when it is done, all its watches have
  ended and nothing waits for it there;
* no search begins later than at the time of the request, and none at all if the informer had no
  watch then, so none if the request was there when it was started. -/
theorem shutdown_freezes {feed : Feed} {labels : Catalog String} {policy : BackoffPolicy}
    {stopping : Bool} {cues : List Cue}
    (run : (opened feed labels policy now stopping).run? cues = some i)
    (running : i.isRunning = true) :
    (∀ later k, i.shutDown.run? later = some k →
      k.kept = i.kept ∧
      (∃ notes, k.log = notes ++ i.log ∧ ∀ note ∈ notes, note.2.settles) ∧
      k.isBroken = false ∧
      (∀ outcome, k.outcome? = some outcome →
        outcome = .ok () ∧ ∀ s ∈ k.sessions, s.phase = .ended ∧ s.queue = []) ∧
      (k.outcome? = none → ∀ time present,
        ∃ j, k.follow? (.move time present) = some (j, none)) ∧
      (∀ time present, ∃ n l, k.run? (List.replicate n (.move time present)) = some l ∧
        l.outcome? = some (.ok ())) ∧
      ((∀ s, k.phase ≠ .watching s) → ∀ rest l, k.run? rest = some l →
        l.unsettled + rest.countP Cue.isMove ≤ k.unsettled)) ∧
    (∀ clock before cue after k l search, i.shutDown.Timely clock (before ++ cue :: after) →
      i.shutDown.run? before = some k → k.follow? cue = some (l, some search) →
        cue.time? = some clock) ∧
    ((∀ s, i.phase ≠ .watching s) → ∀ later, i.shutDown.searches later = []) ∧
    ∀ later, (opened feed labels policy now true).searches later = [] := by
  have attends := attends_of_run run (attends_opened feed labels policy now stopping)
  have stopped : i.Stopped := run?_preserves (fun h stopped => stopped.follow h) run
    (stopped_opened feed labels policy now stopping)
  have shut := shut_of_shutDown attends stopped running
  refine ⟨?_, ?_, shut.searches_eq_nil, ?_⟩
  · intro later k rest
    have still := shut.run rest
    exact ⟨shut.kept rest, shut.log rest, still.isBroken, fun _ => still.outcome,
      fun going => still.exists_move (still.isRunning going), still.returns,
      fun unwatched _ _ => still.moves_le unwatched⟩
  · intro clock before cue after k l search timely first begins
    exact shut.search_at_once timely first begins
  · have opens : (opened feed labels policy now true).Shut :=
      ⟨rfl, attends_opened feed labels policy now true,
        stopped_opened feed labels policy now true, .inl rfl⟩
    refine opens.searches_eq_nil ?_
    intro s phase
    cases phase

/-- A feed whose watches have room for one event. -/
def narrowFeed : Feed := { config := { eventBufferSize := 1 } }

/-- A watch that has room for one event is told of two changes in one second. -/
def untilFull : List Cue :=
  [.move 0 .epoch, .answer 0 .epoch (.ok ⟨[.sample 1 0 5]⟩), .proceed 16000,
    .answer 16000 .epoch (.ok ⟨[.sample 1 0 20, .sample 2 0 20]⟩), .proceed 16000]

/-- The shutdown comes while the second change waits for room. Both are discarded: the informer is
done, and its copy is still the one from the list. -/
theorem shut_down_while_queue_is_full :
    ∃ i s, (opened narrowFeed .empty {} 0 false).run? untilFull = some i ∧
      i.isRunning = true ∧ i.phase = .watching s ∧ s.isDelivering = true ∧ s.hasRoom = false ∧
      ∃ n k, i.shutDown.run? (List.replicate n (.move 16000 .epoch)) = some k ∧
        k.outcome? = some (.ok ()) ∧
        k.store.get? (Bug.nameOf 1) = some (.ofInfo (.sample 1 0 5)) := by
  obtain ⟨i, s, run, phase, delivering, full, held⟩ :
      ∃ i s, (opened narrowFeed .empty {} 0 false).run? untilFull = some i ∧
        i.phase = .watching s ∧ s.isDelivering = true ∧ s.hasRoom = false ∧
        i.store.get? (Bug.nameOf 1) = some (.ofInfo (.sample 1 0 5)) := by
    have fits : max 1 narrowFeed.config.eventBufferSize.toNat ≤ Session.longestQueue := by decide
    have asked : (watchingSample narrowFeed).follow? (.proceed 16000) =
        some (searchingSample narrowFeed, some { changedSince := some (.onFirstDay 6) }) := rfl
    have latest : (SearchResponse.mk [.sample 1 0 20, .sample 2 0 20]).latestChange? =
        some ⟨.onFirstDay 20⟩ := rfl
    have heard := follow?_answer (answer_accepted (i := searchingSample narrowFeed) rfl 16000
      .epoch rfl rfl latest (by decide) (WatchPlan.batch_of_pairwise (by decide)))
    exact ⟨_, _, (watchingSample_reached fits _).trans ((run?_cons asked _).trans
      ((run?_cons heard [.proceed 16000]).trans rfl)), rfl, rfl, rfl, rfl⟩
  have running : i.isRunning = true := by rw [isRunning, phase]
  obtain ⟨frozen, _⟩ := shutdown_freezes run running
  obtain ⟨_, _, _, _, _, returns, _⟩ := frozen [] _ rfl
  obtain ⟨n, k, rest, done⟩ := returns 16000 .epoch
  obtain ⟨kept, _⟩ := frozen _ k rest
  refine ⟨i, s, run, running, phase, delivering, full, n, k, rest, done, ?_⟩
  rw [← held]
  exact congrArg (fun kept => kept.store.get? (Bug.nameOf 1)) kept

end Informer

end BugFeed
