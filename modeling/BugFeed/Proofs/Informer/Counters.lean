import BugFeed.Proofs.Informer.Cycle
import BugFeed.Proofs.Informer.Sessions
import BugFeed.Proofs.Watch.Balance

/-!
# What an informer counts

An informer counts the lists that it begins and the watches with which it goes on, and each of its
sessions counts that it was opened. No other step of a session adds to these counters
(`Session.Step.tally`). A list begins at one cue and is made at another one, with failed attempts
and pauses between the two; a watch follows each list that is made, and each watch with which the
informer goes on. What a cue adds (`gain`) is added along every run (`tally_of_run`), unless the
informer cannot open the watch (`hasFailed`).
-/

namespace BugFeed

set_option autoImplicit false

/-- What an event of a watch makes an informer begin. -/
def WatchEvent.cycle? : WatchEvent → Option Cycle
  | .error status => if status.isResumable then some .rewatch else none
  | .added _ | .modified _ => none

/-! ## What the steps of a session leave alone -/

/-- Whether something is counted by an informer or at the opening of a session. -/
def Occurrence.isOuter : Occurrence → Bool
  | .sessionStarted | .cycled _ => true
  | .sessionExpired | .polled _ | .delivered _ => false

namespace Session

variable {s t : Session} {now : Nat} {o : Occurrence}

theorem Move.tally {args : Option SearchArgs} (move : Move s now t args)
    (outer : o.isOuter = true) : t.tally o = s.tally o := by
  cases o with
  | sessionExpired | polled | delivered => cases outer
  | sessionStarted | cycled =>
      cases move with
      | expire => exact s.tally_fire now .expired _
      | leave => simp [tally_leave]
      | conclude => exact (tally_conclude _ now .ok _).trans (by simp [Session.tally])
      | deliver => exact (tally_push _ now _ _).trans (by simp [Session.tally])
      | report => exact (tally_push _ now _ _).trans (by simp [Session.tally])
      | abandon => exact s.tally_fire now .finished _
      | ask | vanish => rfl

theorem Hears.tally {response : Except TransportFault SearchResponse}
    (hears : Hears s now response t) (outer : o.isOuter = true) : t.tally o = s.tally o := by
  cases o with
  | sessionExpired | polled | delivered => cases outer
  | sessionStarted | cycled =>
      cases hears with
      | unasked => rfl
      | late => simp [tally_leave]
      | picked _ _ picks =>
          cases picks with
          | failed =>
              refine (tally_fire _ now .failed _).trans ?_
              exact (tally_conclude _ now .error _).trans (by simp [Session.tally, note])
          | empty | skipped =>
              exact (tally_conclude _ now _ _).trans (by simp [Session.tally, note])
          | accepted => rfl

/-- **No step of a session counts what is counted outside of its work.** -/
theorem Step.tally (step : s.Step t) (outer : o.isOuter = true) : t.tally o = s.tally o := by
  cases step with
  | move move => exact move.tally outer
  | hears hears => exact hears.tally outer
  | take taken =>
      rw [(queue_of_take taken).2]
      rfl
  | stop now => exact s.tally_fire now .requested o

end Session

namespace Informer

variable {i j k : Informer} {now : Nat} {present : Instant} {args : Option SearchArgs}
  {o : Occurrence}

/-! ## What an informer and its sessions have counted -/

/-- How often some sessions have counted an occurrence. -/
def earned (sessions : List Session) (o : Occurrence) : Nat :=
  Ledger.growth (sessions.flatMap Session.ledger) o.counter

/-- How often an informer and its sessions have counted an occurrence. -/
def tally (i : Informer) (o : Occurrence) : Nat := i.counted.growth o.counter

/-- What an informer has counted without its present session. -/
def saved (i : Informer) (o : Occurrence) : Nat := i.ledger.growth o.counter + earned i.past o

theorem earned_cons (s : Session) (older : List Session) (o : Occurrence) :
    earned (s :: older) o = s.tally o + earned older o := by
  rw [earned, List.flatMap_cons, Ledger.growth_append]
  rfl

theorem tally_eq (i : Informer) (o : Occurrence) :
    i.tally o = i.ledger.growth o.counter + earned i.sessions o :=
  Ledger.growth_append i.ledger _ o.counter

theorem tally_of_without (without : i.session? = none) : i.tally o = i.saved o := by
  rw [tally_eq, sessions_of_without without, saved]

theorem tally_of_watching {s : Session} (phase : i.phase = .watching s) :
    i.tally o = i.saved o + s.tally o := by
  rw [tally_eq, sessions_of_watching phase, earned_cons, saved]
  omega

theorem saved_count (i : Informer) (o' o : Occurrence) :
    (i.count o').saved o = i.saved o + if o' = o then 1 else 0 := by
  have own : (i.count o').ledger.growth o.counter =
      i.ledger.growth o.counter + if o'.counter = o.counter then 1 else 0 :=
    Ledger.growth_record i.ledger o' o.counter
  have same : o'.counter = o.counter ↔ o' = o :=
    ⟨Occurrence.counter_injective, congrArg _⟩
  simp only [saved, own, same]
  change i.ledger.growth o.counter + (if o' = o then 1 else 0) + earned i.past o = _
  omega

/-! ## What lists and cycles bring -/

/-- By how much lists that were made and what an informer has begun raise the count of an
occurrence: a session is opened after each list and for each watch with which it goes on. -/
def gain (lists : Nat) (cycles : List Cycle) : Occurrence → Nat
  | .sessionStarted => lists + cycles.count .rewatch
  | .cycled cycle => cycles.count cycle
  | .sessionExpired | .polled _ | .delivered _ => 0

theorem gain_append (lists lists' : Nat) (cycles cycles' : List Cycle) (o : Occurrence) :
    gain (lists + lists') (cycles ++ cycles') o = gain lists cycles o + gain lists' cycles' o := by
  cases o with
  | sessionStarted =>
      simp only [gain, List.count_append]
      omega
  | cycled cycle => exact List.count_append
  | sessionExpired | polled | delivered => rfl

theorem gain_nothing (o : Occurrence) : gain 0 [] o = 0 := by cases o <;> rfl

theorem gain_made (o : Occurrence) : gain 1 [] o = if .sessionStarted = o then 1 else 0 := by
  cases o <;> rfl

theorem gain_list (o : Occurrence) : gain 0 [.list] o = if .cycled .list = o then 1 else 0 := by
  cases o with
  | cycled cycle => simp [gain, List.count_singleton]
  | sessionStarted | sessionExpired | polled | delivered => rfl

theorem gain_rewatch (o : Occurrence) : gain 0 [.rewatch] o =
    (if .cycled .rewatch = o then 1 else 0) + if .sessionStarted = o then 1 else 0 := by
  cases o with
  | sessionStarted => rfl
  | cycled cycle => simp [gain, List.count_singleton]
  | sessionExpired | polled | delivered => rfl

/-! ## Watches that cannot be opened -/

/-- Whether an informer is done because of a token, or has broken down. -/
def hasFailed (i : Informer) : Bool :=
  match i.phase with
  | .finished (.error (.token _)) | .broken => true
  | _ => false

/-- An informer that opens a watch has one session more, unless it fails. -/
theorem tally_openWatch (unfailed : (i.openWatch now present).hasFailed = false) :
    (i.openWatch now present).tally o = i.saved o + gain 1 [] o := by
  rcases i.openWatch_outcomes now present with ⟨_, opened | broken⟩ | ⟨_, finished⟩
  · rw [opened, tally_of_watching (i := _) rfl, Session.tally_start, gain_made]
    rfl
  · rw [broken] at unfailed
    cases unfailed
  · rw [finished] at unfailed
    cases unfailed

theorem tally_rewatch (unfailed : (i.rewatch now present).hasFailed = false) :
    (i.rewatch now present).tally o = i.tally o + gain 0 [.rewatch] o := by
  have opened := tally_openWatch (o := o) unfailed
  rw [saved_count, gain_made] at opened
  rw [rewatch, opened, tally_eq, gain_rewatch, Nat.add_assoc]
  rfl

theorem tally_takeOver {list : BugList}
    (unfailed : (i.takeOver now present list).hasFailed = false) :
    (i.takeOver now present list).tally o = i.saved o + gain 1 [] o := by
  unfold takeOver at unfailed ⊢
  cases read : ResourceVersion.parse list.version with
  | error fault =>
      simp only [read] at unfailed
      cases unfailed
  | ok version =>
      simp only [read] at unfailed ⊢
      rw [tally_openWatch unfailed]
      rfl

theorem tally_beginList (i : Informer) (now : Nat) (present : Instant) :
    (i.beginList now present).1.tally o = i.saved o + gain 0 [.list] o := by
  rw [gain_list]
  rcases i.beginList_cases now present with asked | finished
  · rw [asked, tally_of_without rfl]
    exact i.saved_count (.cycled .list) o
  · rw [finished, tally_of_without rfl]
    exact i.saved_count (.cycled .list) o

theorem tally_attemptFailed (i : Informer) (now : Nat) (retry : Retry) (fault : Fault) :
    (i.attemptFailed now retry fault).tally o = i.saved o := by
  rcases i.attemptFailed_cases now retry fault with ⟨next, wake, retrying⟩ | finished
  · rw [retrying]
    exact tally_of_without rfl
  · rw [finished]
    exact tally_of_without rfl

theorem tally_rest (i : Informer) (now : Nat) : (i.rest now).tally o = i.tally o := by
  rw [tally_of_without rfl, tally_eq]
  rfl

/-! ## What a cue adds -/

/-- What an informer begins at a cue: a list once a pause is over, or another watch when the watch
before it reached the end of its lifetime or ended without a fault. -/
def cycle? (i : Informer) : Cue → Option Cycle
  | .move now _ =>
    match i.phase, i.stopping with
    | .resting wake, false => if wake ≤ now then some .list else none
    | .watching s, false =>
      match s.take? now with
      | some (event, _) => event.cycle?
      | none => if s.isClosed then some .rewatch else none
    | _, _ => none
  | _ => none

/-- What an informer begins in a run, first one first. -/
def cycles (i : Informer) (cues : List Cue) : List Cycle := i.along cycle? cues

/-- An informer that has been asked to shut down begins nothing. -/
theorem cycle?_of_stopping (stopping : i.stopping = true) (cue : Cue) : i.cycle? cue = none := by
  unfold cycle?
  split
  · rw [stopping]
    split <;> simp_all
  · rfl

/-- A step of its session adds nothing to what an informer has counted. -/
theorem tally_step {s t : Session} (step : s.Step t) (outer : o.isOuter = true)
    (before : i.session? = some s) (after : j.session? = some t) (ledger : j.ledger = i.ledger)
    (past : j.past = i.past) : j.tally o = i.tally o := by
  rw [tally_eq, tally_eq, sessions, sessions, before, after, ledger, past]
  simp only [Option.toList_some, List.singleton_append, earned_cons, step.tally outer]

theorem tally_moveWatch {move : Session → Option (Session × Option SearchArgs)}
    (makes : ∀ {s t : Session} {asked : Option SearchArgs}, move s = some (t, asked) → s.Step t)
    (h : i.moveWatch? move = some (j, args)) (outer : o.isOuter = true) :
    j.tally o = i.tally o := by
  unfold moveWatch? at h
  split at h
  · rename_i s phase
    obtain ⟨⟨t, asked⟩, moved, same⟩ := Option.map_eq_some_iff.mp h
    cases same
    exact tally_step (makes moved) outer (session?_of_watching phase) rfl rfl rfl
  · rename_i s phase
    obtain ⟨⟨t, asked⟩, moved, same⟩ := Option.map_eq_some_iff.mp h
    cases same
    exact tally_step (makes moved) outer (session?_of_draining phase) rfl rfl rfl
  · cases h

theorem tally_leave (i : Informer) (now : Nat) (outcome : Except Fault Unit) :
    (i.leave.finish now outcome).tally o = i.tally o := by
  rw [tally_of_without rfl, tally_eq]
  rfl

theorem tally_finish (without : i.session? = none) (now : Nat) (outcome : Except Fault Unit) :
    (i.finish now outcome).tally o = i.tally o := by
  rw [tally_of_without rfl, tally_of_without without]
  rfl

theorem tally_consume (event : WatchEvent)
    (unfailed : (i.consume now present event).hasFailed = false) :
    (i.consume now present event).tally o = i.tally o + gain 0 event.cycle?.toList o := by
  cases event with
  | added b | modified b =>
      rw [WatchEvent.cycle?, Option.toList_none, gain_nothing]
      rfl
  | error status =>
      rw [consume] at unfailed ⊢
      rw [WatchEvent.cycle?]
      by_cases resumable : status.isResumable = true
      · simp only [resumable, if_true] at unfailed ⊢
        exact tally_rewatch unfailed
      · rw [if_neg resumable, if_neg resumable, Option.toList_none, gain_nothing]
        exact (i.note now (.closed (some status))).tally_rest now

theorem tally_turn (turn : Turn i now present j args) (outer : o.isOuter = true)
    (unfailed : j.hasFailed = false) :
    j.tally o = i.tally o + gain 0 (i.cycle? (.move now present)).toList o := by
  have idle : j.tally o = i.tally o → i.cycle? (.move now present) = none →
      j.tally o = i.tally o + gain 0 (i.cycle? (.move now present)).toList o := by
    intro same nothing
    rw [same, nothing, Option.toList_none, gain_nothing]
    rfl
  cases turn with
  | giveUp stopping _ without =>
      exact idle (tally_finish without now (.ok ())) (cycle?_of_stopping stopping _)
  | stop stopping phase =>
      refine idle ?_ (cycle?_of_stopping stopping _)
      exact tally_step (.stop now) outer (session?_of_watching phase) rfl rfl rfl
  | discard stopping phase taken =>
      refine idle ?_ (cycle?_of_stopping stopping _)
      exact tally_step (.take taken) outer (session?_of_draining phase) rfl rfl rfl
  | drained stopping => exact idle (i.tally_leave now (.ok ())) (cycle?_of_stopping stopping _)
  | list running phase due =>
      have cycle : i.cycle? (.move now present) = some .list := by
        simp [cycle?, phase, running, due]
      rw [tally_beginList, ← tally_of_without (by rw [session?, phase]), cycle, Option.toList_some]
  | timeOut _ phase =>
      refine idle ?_ (by simp [cycle?, phase])
      rw [tally_attemptFailed, tally_of_without (by rw [session?, phase])]
  | retry _ phase =>
      refine idle ?_ (by simp [cycle?, phase])
      rw [tally_of_without (i := i) (by rw [session?, phase])]
      exact tally_of_without rfl
  | @take s t event running phase taken =>
      have cycle : i.cycle? (.move now present) = event.cycle? := by
        simp only [cycle?, phase, running, taken]
      have before : ({ i with phase := .watching t } : Informer).tally o = i.tally o :=
        tally_step (.take taken) outer (session?_of_watching phase) rfl rfl rfl
      rw [tally_consume event unfailed, cycle, before]
  | closed running phase untaken closed =>
      have cycle : i.cycle? (.move now present) = some .rewatch := by
        simp only [cycle?, phase, running, untaken, closed, if_true]
      rw [cycle]
      exact tally_rewatch unfailed
  | watch running phase untaken open_ moved =>
      refine idle ?_ (by simp [cycle?, phase, running, untaken, open_])
      exact tally_step (.move (move_of_moves moved)) outer (session?_of_watching phase) rfl rfl rfl
  | drain phase moved =>
      refine idle ?_ (by simp [cycle?, phase])
      exact tally_step (.move (move_of_moves moved)) outer (session?_of_draining phase) rfl rfl rfl

theorem tally_answer (response : Except TransportFault SearchResponse) (outer : o.isOuter = true)
    (unfailed : (i.answer now present response).hasFailed = false) :
    (i.answer now present response).tally o =
      i.tally o + gain (i.lists? (.answer now present response)).toList.length [] o := by
  have idle : (i.answer now present response).tally o = i.tally o →
      i.lists? (.answer now present response) = none →
      (i.answer now present response).tally o =
        i.tally o + gain (i.lists? (.answer now present response)).toList.length [] o := by
    intro same nothing
    rw [same, nothing, Option.toList_none, List.length_nil, gain_nothing]
    rfl
  cases phase : i.phase with
  | listing retry deadline anchor =>
      have before : i.tally o = i.saved o := tally_of_without (by rw [session?, phase])
      cases stopping : i.stopping with
      | true =>
          refine idle ?_ ?_
          · simp only [answer, phase, stopping, if_true]
          · cases response <;> simp [lists?, phase, stopping]
      | false =>
          cases response with
          | error fault =>
              refine idle ?_ rfl
              simp only [answer, phase, stopping, Feed.listOf, Bool.false_eq_true, if_false]
              rw [tally_attemptFailed, before]
          | ok found =>
              simp only [answer, phase, stopping, Feed.listOf, Bool.false_eq_true, if_false]
                at unfailed ⊢
              have listed : i.lists? (.answer now present (.ok found)) = some found := by
                simp [lists?, phase, stopping]
              rw [tally_takeOver unfailed, listed, before]
              rfl
  | watching s =>
      refine idle ?_ ?_
      · rw [answer, phase]
        exact tally_step (.hears (s.hears_answer now response)) outer (session?_of_watching phase)
          rfl rfl rfl
      · cases response <;> simp [lists?, phase]
  | draining s =>
      refine idle ?_ ?_
      · rw [answer, phase]
        exact tally_step (.hears (s.hears_answer now response)) outer (session?_of_draining phase)
          rfl rfl rfl
      · cases response <;> simp [lists?, phase]
  | idle | resting | retrying | finished | broken =>
      refine idle ?_ ?_
      · rw [answer, phase]
      · cases response <;> simp [lists?, phase]

/-- **What an informer and its sessions have counted grows at a cue by what the cue adds.** -/
theorem tally_follow {cue : Cue} (h : i.follow? cue = some (j, args)) (outer : o.isOuter = true)
    (unfailed : j.hasFailed = false) :
    j.tally o = i.tally o + gain (i.lists? cue).toList.length (i.cycle? cue).toList o := by
  cases cue with
  | move now present => exact tally_turn (turn_of_move h) outer unfailed
  | expire now =>
      refine (tally_moveWatch ?_ h outer).trans (congrArg (i.tally o + ·) (gain_nothing o)).symm
      intro s t asked moved
      obtain ⟨u, expired, same⟩ := Option.map_eq_some_iff.mp moved
      cases same
      exact .move (Session.move_of_expire expired)
  | proceed now =>
      refine (tally_moveWatch ?_ h outer).trans (congrArg (i.tally o + ·) (gain_nothing o)).symm
      exact fun moved => .move (Session.move_of_proceed moved)
  | answer now present response =>
      cases h
      exact tally_answer response outer unfailed
  | shutDown =>
      cases h
      exact (congrArg (i.tally o + ·) (gain_nothing o)).symm

/-! ## Runs -/

/-- An informer that has failed stays so. -/
theorem hasFailed_follow {cue : Cue} (h : i.follow? cue = some (j, args))
    (failed : i.hasFailed = true) : j.hasFailed = true := by
  have done : (∃ outcome, i.phase = .finished outcome) ∨ i.phase = .broken := by
    rw [hasFailed] at failed
    split at failed
    · rename_i phase
      exact .inl ⟨_, phase⟩
    · rename_i phase
      exact .inr phase
    · cases failed
  have kept : j.phase = i.phase := by
    cases cue with
    | move =>
        rcases done with ⟨outcome, phase⟩ | phase <;>
          simp [follow?, move?, settleDown?, proceed?, phase] at h
    | expire | proceed =>
        rcases done with ⟨outcome, phase⟩ | phase <;> simp [follow?, moveWatch?, phase] at h
    | answer =>
        cases h
        rcases done with ⟨outcome, phase⟩ | phase <;> simp [answer, phase]
    | shutDown =>
        cases h
        rfl
  rw [hasFailed, kept]
  exact failed

/-- **What an informer and its sessions have counted grows in a run by the lists that were made and
by what the informer began.** -/
theorem tally_of_run {cues : List Cue} (run : i.run? cues = some k) (outer : o.isOuter = true)
    (unfailed : k.hasFailed = false) :
    k.tally o = i.tally o + gain (i.lists cues).length (i.cycles cues) o := by
  induction cues generalizing i with
  | nil =>
      cases run
      exact (congrArg (k.tally o + ·) (gain_nothing o)).symm
  | cons cue cues ih =>
      obtain ⟨⟨j, args⟩, first, rest⟩ := Option.bind_eq_some_iff.mp run
      have still : j.hasFailed = false := by
        by_contra failed
        have fails := run?_preserves (P := fun i => i.hasFailed = true)
          (fun h failed => hasFailed_follow h failed) rest (eq_true_of_ne_false failed)
        cases fails.symm.trans unfailed
      have cycles : i.cycles (cue :: cues) = (i.cycle? cue).toList ++ j.cycles cues :=
        along_cons first cues
      rw [ih rest, tally_follow first outer still, lists_cons first, cycles, List.length_append,
        gain_append, Nat.add_assoc]

theorem hasFailed_eq_false (unrefused : ∀ fault, i.outcome? ≠ some (.error (.token fault)))
    (unbroken : i.isBroken = false) : i.hasFailed = false := by
  rw [hasFailed]
  split
  · rename_i fault phase
    exact absurd (by rw [outcome?, phase]) (unrefused fault)
  · rename_i phase
    simp [isBroken, phase] at unbroken
  · rfl

/-- **The counters account exactly for what happened.**

* The counters of a session that has ended, and whose consumer was there and has taken all events,
  balance with the events that were taken, the answers that were looked at and the end of the
  lifetime, wherever its searches, its batches or its pauses were broken off.
* As long as no token is refused and no queue is too long, and so at every moment inside a watch, an
  informer has counted the lists that it began, whatever the number of attempts to make them, and
  the watches with which it went on, and as many sessions have been opened as lists were made and
  watches gone on with.
* A counter goes on from its value by what is added to it, in 64 bits. -/
theorem counters_account :
    (∀ {now : Nat} {present : Instant} {plan : WatchPlan} {cues : List Session.Cue} {s : Session},
      (Session.start now present plan).run? cues = some s → s.phase = .ended →
        s.attached = true → s.queue = [] → Session.Balanced (.start now present plan) cues s) ∧
    (∀ {i k : Informer} {cues : List Cue}, i.run? cues = some k →
      (∀ fault, k.outcome? ≠ some (.error (.token fault))) → k.isBroken = false →
        k.tally (.cycled .list) = i.tally (.cycled .list) + (i.cycles cues).count .list ∧
        k.tally (.cycled .rewatch) = i.tally (.cycled .rewatch) + (i.cycles cues).count .rewatch ∧
        k.tally .sessionStarted =
          i.tally .sessionStarted + ((i.lists cues).length + (i.cycles cues).count .rewatch)) ∧
    ∀ (l before : Ledger) (c : Counter),
      Ledger.total (l ++ before) c = (before.total c + l.growth c) % UInt64.size := by
  refine ⟨Session.balanced_of_run, ?_, Ledger.total_append⟩
  intro i k cues run unrefused unbroken
  have unfailed := hasFailed_eq_false unrefused unbroken
  exact ⟨tally_of_run run rfl unfailed, tally_of_run run rfl unfailed,
    tally_of_run run rfl unfailed⟩

/-- The lifetime of a session ends while a change waits for room, which is then left out. -/
def untilCut : List Session.Cue :=
  [.proceed 7000, .answer 7000 (.ok ⟨[.sample 1 0 8, .sample 2 0 9]⟩), .proceed 7000,
    .expire 60000, .proceed 60001, .take 60002, .proceed 60002, .take 60003]

/-- An informer makes its list at the second attempt and goes on with a second watch. -/
def untilRewatch : List Cue :=
  [.move 0 .epoch, .answer 0 .epoch (.error (.unavailable "")), .move 100000 .epoch,
    .answer 100000 .epoch (.ok ⟨[.sample 1 0 5]⟩), .expire 2000000, .proceed 2000000,
    .proceed 2000000, .move 2000000 .epoch]

/-- The poll that is cut has no outcome, and the attempt to list that failed is no cycle of its
own. -/
theorem cut_batch_and_second_attempt_counted :
    (∃ s, (Session.start 0 .epoch (.sample 6)).run? untilCut = some s ∧
      s.phase = .ended ∧ s.attached = true ∧ s.queue = [] ∧
      s.tally (.delivered .modified) = 1 ∧ s.tally (.delivered .error) = 1 ∧
      (s.polls.countP fun p => p.isCut s.plan) + s.tally (.polled .ok) = 1 ∧
      s.tally .sessionExpired = 1) ∧
    ∃ k, (opened {} .empty {} 0 false).run? untilRewatch = some k ∧
      k.outcome? = none ∧ k.isBroken = false ∧ k.tally (.cycled .list) = 1 ∧
      k.tally .sessionStarted = 1 + k.tally (.cycled .rewatch) := by
  obtain ⟨sessions, informers, _⟩ := counters_account
  constructor
  · have batch : (WatchPlan.sample 6).batch ⟨.onFirstDay 6⟩ ⟨[.sample 1 0 8, .sample 2 0 9]⟩ =
        [.ofInfo (.sample 1 0 8), .ofInfo (.sample 2 0 9)] :=
      WatchPlan.batch_of_pairwise (by decide)
    have latest : (SearchResponse.mk [.sample 1 0 8, .sample 2 0 9]).latestChange? =
        some ⟨.onFirstDay 9⟩ := rfl
    obtain ⟨s, run, ended, attached, empty, kinds, answers, failed⟩ :
        ∃ s, (Session.start 0 .epoch (.sample 6)).run? untilCut = some s ∧ s.phase = .ended ∧
          s.attached = true ∧ s.queue = [] ∧ s.received.map WatchEvent.kind = [.modified, .error] ∧
          s.responses.length = 1 ∧ s.tally (.polled .empty) + s.tally (.polled .skipped) +
            s.tally (.polled .error) = 0 :=
      ⟨_, (Session.run?_accepted Session.run?_firstSearch 7000 rfl rfl latest (by decide) batch
        [.proceed 7000, .expire 60000, .proceed 60001, .take 60002, .proceed 60002,
          .take 60003]).trans rfl, rfl, rfl, rfl, rfl, rfl, rfl⟩
    have balanced := sessions run ended attached empty
    have taken : (Session.start 0 .epoch (.sample 6)).takings untilCut = s.received :=
      (Session.received_of_run run).symm
    have events (kind : EventKind) :
        s.tally (.delivered kind) = [EventKind.modified, .error].count kind := by
      rw [balanced.events [] untilCut _ rfl rfl kind, taken, kinds]
      exact Nat.zero_add _
    have each := balanced.each
    rw [← balanced.answers, answers] at each
    refine ⟨s, run, ended, attached, empty, events .modified, events .error, by omega, ?_⟩
    rcases balanced.expired with ⟨one, _⟩ | ⟨_, never⟩
    · exact one
    · exact absurd (by simp [untilCut]) (never 60000)
  · obtain ⟨k, run, unfinished, unbroken⟩ :
        ∃ k, (opened {} .empty {} 0 false).run? untilRewatch = some k ∧ k.outcome? = none ∧
          k.isBroken = false := ⟨_, rfl, rfl, rfl⟩
    obtain ⟨lists, rewatches, started⟩ := informers run (by simp [unfinished]) unbroken
    have cycles : (opened {} .empty {} 0 false).cycles untilRewatch = [.list, .rewatch] := rfl
    have made : ((opened {} .empty {} 0 false).lists untilRewatch).length = 1 := rfl
    rw [cycles] at lists rewatches started
    refine ⟨k, run, unfinished, unbroken, lists, ?_⟩
    rw [started, made, rewatches]
    rfl

end Informer

end BugFeed
