import BugFeed.Proofs.Informer.Superseded
import BugFeed.Proofs.Watch.Due
import BugFeed.Proofs.Watch.Ending
import BugFeed.Proofs.Watch.Handoff

/-!
# Which tokens are refused

An informer writes its versions as tokens and reads them back: that of a list when it takes the list
over, and that of the version it has come to whenever it opens a watch. A version is one of the
times that came from outside, the present at which a search for the list began or the change time
of a bug in an answer, or the beginning of such a second. All times that an informer holds come from
there (`Sourced`, `sourced_of_run`).

So a token is refused only if one of these times is in a year that has not four digits, and then it
is the token of that time (`refused_only_in_signed_years`). Such times there are: a bug may have
changed in the year ten thousand, and the informer that lists it is done at once
(`year_ten_thousand_refused`).
-/

namespace BugFeed

set_option autoImplicit false

variable {T : Instant → Prop}

/-! ## Where the events of a session come from -/

/-- A session all of whose answers hold only certain change times. -/
structure Session.Sourced (T : Instant → Prop) (s : Session) : Prop where
  lawful : s.Lawful
  known : ∀ found ∈ s.answers, ∀ f ∈ found.bugs, T f.lastChange

namespace Session

variable {s t : Session} {now : Nat} {event : WatchEvent} {b : Bug}

/-- What a session hands over is what it was answered. -/
theorem Lawful.exists_answered (lawful : s.Lawful) (member : b ∈ s.reported) :
    ∃ found ∈ s.answers, ∃ f ∈ found.bugs, b = .ofInfo f := by
  rw [lawful.passes.reported_eq] at member
  obtain ⟨p, inside, reported⟩ := List.mem_flatMap.mp member
  obtain ⟨done, rest, hands⟩ := lawful.told.history.handsOver (List.mem_reverse.mp inside)
  have handed := hands.mem_batch reported
  rw [Poll.batch] at handed
  split at handed
  · rename_i found answered
    obtain ⟨f, told, _, same, _⟩ := s.plan.mem_batch.mp handed
    refine ⟨found, List.mem_filterMap.mpr ⟨p, inside, ?_⟩, f, told, same.symm⟩
    rw [Poll.found?, answered]
  · cases handed

/-- An event that the consumer took is one that was handed over. -/
theorem Passes.reported_of_received (passes : s.Passes) (member : event ∈ s.received)
    (about : event.bug? = some b) : b ∈ s.reported :=
  List.mem_filterMap.mpr ⟨event, passes.received_prefix_delivered.subset member, about⟩

namespace Sourced

variable (sourced : s.Sourced T)

include sourced

theorem of_reported (member : b ∈ s.reported) : T b.lastChange := by
  obtain ⟨found, answered, f, inside, rfl⟩ := sourced.lawful.exists_answered member
  exact sourced.known found answered f inside

theorem of_received (member : event ∈ s.received) (about : event.bug? = some b) :
    T b.lastChange :=
  sourced.of_reported (sourced.lawful.passes.reported_of_received member about)

theorem move {args : Option SearchArgs} (move : Move s now t args) : t.Sourced T where
  lawful := sourced.lawful.move move
  known := by
    rw [move.answers]
    exact sourced.known

theorem hears {response : Except TransportFault SearchResponse} (hears : Hears s now response t)
    (brings : ∀ found, response = .ok found → ∀ f ∈ found.bugs, T f.lastChange) :
    t.Sourced T where
  lawful := sourced.lawful.hears hears
  known := by
    intro found answered
    rw [hears.answers sourced.lawful.told] at answered
    rcases List.mem_append.mp answered with before | new
    · exact sourced.known found before
    · refine brings found ?_
      cases response with
      | error fault => cases new
      | ok other =>
          rw [hears?] at new
          split at new
          · rw [List.mem_singleton.mp new]
          · cases new

theorem take (taken : s.take? now = some (event, t)) : t.Sourced T where
  lawful := sourced.lawful.take taken
  known := by
    rw [answers_take taken]
    exact sourced.known

theorem stop (now : Nat) : (s.stop now).Sourced T where
  lawful := sourced.lawful.stop now
  known := by
    rw [Session.stop, answers_fire]
    exact sourced.known

end Sourced

theorem sourced_start (now : Nat) (present : Instant) (plan : WatchPlan) :
    (start now present plan).Sourced T where
  lawful := lawful_start now present plan
  known found answered := by cases answered

end Session

/-- The version of a list is the change time of one of its bugs, or the anchor. -/
theorem SearchResponse.reflects_cases (found : SearchResponse) (anchor : ResourceVersion) :
    (∃ f ∈ found.bugs, f.lastChange = (found.reflects anchor).time) ∨
      found.reflects anchor = anchor := by
  rw [reflects]
  cases latest : found.latestChange? with
  | none => exact .inr rfl
  | some version => exact .inl (exists_latestChange latest)

namespace Informer

/-! ## Where the versions of an informer come from -/

/-- The times that a cue brings from outside: the present, at which a search for the list may begin,
and the change times in an answer. -/
def Cue.times : Cue → List Instant
  | .move _ present => [present]
  | .answer _ _ (.ok found) => found.bugs.map BugInfo.lastChange
  | _ => []

/-- The token of a version is refused because the year of the version has not four digits. -/
def Refuses (fault : TokenFault) (t : Instant) : Prop :=
  ¬(ResourceVersion.mk t).Written ∧ fault = ⟨(ResourceVersion.mk t).display, .invalid⟩

/-- An informer that holds only certain times, and that, if it is done because a token was refused,
has refused that of one of them. -/
structure Sourced (T : Instant → Prop) (i : Informer) : Prop where
  session : ∀ s, i.session? = some s → s.Sourced T
  anchor : ∀ retry deadline anchor, i.phase = .listing retry deadline anchor → T anchor.time
  version : T i.version.time
  refused : ∀ fault, i.phase = .finished (.error (.token fault)) → ∃ t, T t ∧ Refuses fault t

variable {i j : Informer} {now : Nat} {present : Instant} {args : Option SearchArgs}

theorem epoch_written : (ResourceVersion.mk .epoch).Written := by decide

theorem sourced_opened (ordinary : ∀ t, (ResourceVersion.mk t).Written → T t) (feed : Feed)
    (labels : Catalog String) (policy : BackoffPolicy) (now : Nat) (stopping : Bool) :
    (opened feed labels policy now stopping).Sourced T where
  session s own := by cases own
  anchor retry deadline anchor phase := by cases phase
  version := ordinary _ epoch_written
  refused fault phase := by cases phase

namespace Sourced

/-- An informer that waits, or has broken down, holds its version. -/
theorem of_waiting (version : T i.version.time)
    (waits : (∃ wake, i.phase = .resting wake) ∨ (∃ retry wake, i.phase = .retrying retry wake) ∨
      i.phase = .broken) : i.Sourced T := by
  have without : i.session? = none := by
    rw [session?]
    rcases waits with ⟨wake, phase⟩ | ⟨retry, wake, phase⟩ | phase <;> rw [phase]
  refine ⟨fun s own => ?_, fun retry deadline anchor listing => ?_, version, fun fault done => ?_⟩
  · rw [without] at own
    cases own
  · rcases waits with ⟨wake, phase⟩ | ⟨retry, wake, phase⟩ | phase <;> rw [phase] at listing <;>
      cases listing
  · rcases waits with ⟨wake, phase⟩ | ⟨retry, wake, phase⟩ | phase <;> rw [phase] at done <;>
      cases done

/-- An informer with a session holds its version and what the session holds. -/
theorem of_session (version : T i.version.time) {s : Session} (known : s.Sourced T)
    (own : i.session? = some s) : i.Sourced T := by
  refine ⟨fun t other => ?_, fun retry deadline anchor listing => ?_, version, fun fault done => ?_⟩
  · rw [own] at other
    cases other
    exact known
  · rw [session?, listing] at own
    cases own
  · rw [session?, done] at own
    cases own

variable (sourced : i.Sourced T)

include sourced

theorem finish (now : Nat) {outcome : Except Fault Unit}
    (other : ∀ fault, outcome ≠ .error (.token fault)) : (i.finish now outcome).Sourced T where
  session s own := by cases own
  anchor retry deadline anchor phase := by cases phase
  version := sourced.version
  refused fault phase := by
    cases phase
    exact absurd rfl (other fault)

theorem refuse (now : Nat) {v : ResourceVersion} (source : T v.time) (signed : ¬v.Written) :
    (i.finish now (.error (.token ⟨v.display, .invalid⟩))).Sourced T where
  session s own := by cases own
  anchor retry deadline anchor phase := by cases phase
  version := sourced.version
  refused fault phase := by
    cases phase
    exact ⟨v.time, source, signed, rfl⟩

theorem note (now : Nat) (n : InformerNote) : (i.note now n).Sourced T :=
  ⟨sourced.session, sourced.anchor, sourced.version, sourced.refused⟩

theorem ask (now : Nat) (source : T present) (retry : Retry) :
    (i.ask now present retry).1.Sourced T where
  session s own := by cases own
  anchor other deadline anchor phase := by
    cases phase
    exact source
  version := sourced.version
  refused fault phase := by cases phase

theorem beginList (now : Nat) (source : T present) : (i.beginList now present).1.Sourced T := by
  have began : ((i.count (.cycled .list)).note now .began).Sourced T :=
    ⟨sourced.session, sourced.anchor, sourced.version, sourced.refused⟩
  rcases i.beginList_cases now present with asked | finished
  · rw [asked]
    exact began.ask now source _
  · rw [finished]
    exact began.finish now (by simp [Retry.notTried])

theorem attemptFailed (now : Nat) (retry : Retry) {fault : Fault}
    (other : ∀ token, fault ≠ .token token) : (i.attemptFailed now retry fault).Sourced T := by
  rcases i.attemptFailed_cases now retry fault with ⟨next, wake, retrying⟩ | finished
  · rw [retrying]
    exact of_waiting sourced.version (.inr (.inl ⟨next, wake, rfl⟩))
  · rw [finished]
    refine (sourced.note now _).finish now ?_
    intro token same
    cases same
    exact other token rfl

theorem openWatch (now : Nat) (present : Instant) : (i.openWatch now present).Sourced T := by
  rcases i.openWatch_outcomes now present with ⟨_, opened | broken⟩ | ⟨signed, finished⟩
  · rw [opened]
    exact of_session sourced.version (Session.sourced_start now present _) rfl
  · rw [broken]
    exact of_waiting sourced.version (.inr (.inr rfl))
  · rw [finished]
    exact sourced.refuse now sourced.version signed

theorem rewatch (now : Nat) (present : Instant) : (i.rewatch now present).Sourced T := by
  have left : ({ i.leave with relists := 0 }.count (.cycled .rewatch)).Sourced T :=
    ⟨sourced.session, sourced.anchor, sourced.version, sourced.refused⟩
  exact left.openWatch now present

theorem rest (now : Nat) : (i.rest now).Sourced T :=
  of_waiting sourced.version (.inl ⟨_, rfl⟩)

theorem takeOver (ordinary : ∀ t, (ResourceVersion.mk t).Written → T t) (now : Nat)
    (present : Instant) {found : SearchResponse} {anchor : ResourceVersion}
    (source : T (found.reflects anchor).time) (includes : BugInfo → Bool) :
    (i.takeOver now present (.ofResponse found includes anchor)).Sourced T := by
  have outcomes := takeOver_outcomes (rfl : (BugList.ofResponse found includes anchor).version =
    (found.reflects anchor).display) i now present
  rcases outcomes with ⟨written, taken⟩ | ⟨signed, finished⟩
  · rw [taken]
    refine Sourced.openWatch ?_ now present
    exact ⟨sourced.session, sourced.anchor, ordinary _ ⟨written.low, written.high⟩,
      sourced.refused⟩
  · rw [finished]
    exact sourced.refuse now source signed

theorem absorb (now : Nat) (event : WatchEvent) {b : Bug} (source : T b.lastChange) :
    (i.absorb now event b).Sourced T := by
  refine ⟨sourced.session, sourced.anchor, ?_, sourced.refused⟩
  change T (i.version.latest ⟨b.lastChange⟩).time
  rw [ResourceVersion.latest_time]
  rcases max_choice i.version.time b.lastChange with same | same
  · rw [same]
    exact sourced.version
  · rw [same]
    exact source

theorem consume (now : Nat) (present : Instant) {event : WatchEvent}
    (source : ∀ b, event.bug? = some b → T b.lastChange) :
    (i.consume now present event).Sourced T := by
  rcases i.consume_cases now present event with
    ⟨b, about, absorbed⟩ | ⟨status, _, rewatched | rested⟩
  · rw [absorbed]
    exact sourced.absorb now event (source b about)
  · rw [rewatched]
    exact (sourced.note now _).rewatch now present
  · rw [rested]
    exact (sourced.note now _).rest now

theorem enters {s : Session} (known : s.Sourced T) {phase : InformerPhase}
    (own : ({ i with phase := phase } : Informer).session? = some s) :
    ({ i with phase := phase } : Informer).Sourced T :=
  of_session sourced.version known own

/-! ## Runs -/

theorem act (source : T present) (act : Act i now present j args) : j.Sourced T := by
  have watching : ∀ {s : Session}, i.phase = .watching s → s.Sourced T := by
    intro s phase
    exact sourced.session s (by rw [session?, phase])
  have draining : ∀ {s : Session}, i.phase = .draining s → s.Sourced T := by
    intro s phase
    exact sourced.session s (by rw [session?, phase])
  cases act with
  | list => exact sourced.beginList now source
  | timeOut => exact sourced.attemptFailed now _ (by simp [Retry.timedOut])
  | retry => exact sourced.ask now source _
  | giveUp => exact sourced.finish now (by simp)
  | @take s t event phase taken =>
      have later := (watching phase).take taken
      refine (sourced.enters later rfl).consume now present ?_
      intro b about
      refine later.of_received ?_ about
      rw [Session.received_of_take taken]
      exact List.mem_append_right _ List.mem_cons_self
  | closed => exact (sourced.note now _).rewatch now present
  | watch phase move => exact sourced.enters ((watching phase).move move) rfl
  | stop phase => exact sourced.enters ((watching phase).stop now) rfl
  | discard phase taken =>
      exact (sourced.enters ((draining phase).take taken) rfl).note now _
  | drained =>
      have left : i.leave.Sourced T :=
        ⟨sourced.session, sourced.anchor, sourced.version, sourced.refused⟩
      exact left.finish now (by simp)
  | drain phase move => exact sourced.enters ((draining phase).move move) rfl

theorem heard (ordinary : ∀ t, (ResourceVersion.mk t).Written → T t)
    {response : Except TransportFault SearchResponse} (heard : Heard i now present response j)
    (brings : ∀ found, response = .ok found → ∀ f ∈ found.bugs, T f.lastChange) :
    j.Sourced T := by
  cases heard with
  | ignored => exact sourced
  | @list retry deadline anchor found phase =>
      refine sourced.takeOver ordinary now present ?_ _
      rcases found.reflects_cases anchor with ⟨f, member, same⟩ | same
      · rw [← same]
        exact brings found rfl f member
      · rw [same]
        exact sourced.anchor retry deadline anchor phase
  | failed => exact sourced.attemptFailed now _ (by simp)
  | watch phase hears =>
      have known := sourced.session _ (by rw [session?, phase])
      exact sourced.enters (known.hears hears brings) rfl
  | drain phase hears =>
      have known := sourced.session _ (by rw [session?, phase])
      exact sourced.enters (known.hears hears brings) rfl

theorem follow (ordinary : ∀ t, (ResourceVersion.mk t).Written → T t) {cue : Cue}
    (brings : ∀ t ∈ cue.times, T t) (h : i.follow? cue = some (j, args)) : j.Sourced T := by
  cases cue with
  | move now present => exact sourced.act (brings present List.mem_cons_self) (act_of_move h)
  | expire now => exact sourced.act (ordinary _ epoch_written) (act_of_expire_watch h)
  | proceed now => exact sourced.act (ordinary _ epoch_written) (act_of_proceed_watch h)
  | answer now present response =>
      cases h
      refine sourced.heard ordinary (heard_answer i now present response) ?_
      intro found same f member
      subst same
      exact brings f.lastChange (List.mem_map_of_mem member)
  | shutDown =>
      cases h
      exact ⟨sourced.session, sourced.anchor, sourced.version, sourced.refused⟩

end Sourced

/-- **All that an informer holds comes from outside, in every run.** -/
theorem sourced_of_run {feed : Feed} {labels : Catalog String} {policy : BackoffPolicy}
    {stopping : Bool} {cues : List Cue}
    (run : (opened feed labels policy now stopping).run? cues = some i) :
    i.Sourced fun t => (ResourceVersion.mk t).Written ∨ ∃ cue ∈ cues, t ∈ cue.times := by
  refine run?_preserves_of_mem ?_ run
    (sourced_opened (fun _ => .inl) feed labels policy now stopping)
  intro i j cue args member follows sourced
  exact sourced.follow (fun _ => .inl) (fun t inside => .inr ⟨cue, member, inside⟩) follows

/-! ## Refused tokens -/

/-- **A token is refused only if it is that of a time in a year that has not four digits.** The
token of a list is accepted exactly if the latest change of the answer, or the anchor if the answer
is empty, is in the years 0 to 9999. In another year it is refused for its sign, and an informer
that has listed this is done. In every run of an informer, if it is done because a token was
refused, be it that of a list or that of the version from which it would have watched on, then it
was the token of a present at which the informer moved or of a change in an answer, in a year that
has not four digits. -/
theorem refused_only_in_signed_years (feed : Feed) :
    (∀ options anchor found list now present, feed.listOf anchor (.ok found) = .ok list →
      options.version = some list.version →
        ((found.reflects anchor).Written → ∀ fault,
          feed.watch options now present ≠ .error (.token fault)) ∧
        (¬(found.reflects anchor).Written →
          feed.watch options now present = .error (.token ⟨list.version, .invalid⟩))) ∧
    (∀ (i : Informer) (found : SearchResponse) retry deadline anchor now present,
      i.phase = .listing retry deadline anchor → i.stopping = false →
      ¬(found.reflects anchor).Written →
        (i.answer now present (.ok found)).outcome? =
          some (.error (.token ⟨(found.reflects anchor).display, .invalid⟩))) ∧
    ∀ labels policy now stopping cues i fault,
      (opened feed labels policy now stopping).run? cues = some i →
      i.outcome? = some (.error (.token fault)) →
        ∃ cue ∈ cues, ∃ t ∈ cue.times, Refuses fault t := by
  refine ⟨?_, ?_, ?_⟩
  · intro options anchor found list now present listed resumed
    have version : options.version = some (found.reflects anchor).display := by
      cases listed
      exact resumed
    constructor
    · intro written fault refused
      rw [Feed.watch_display written version] at refused
      split at refused <;> cases refused
    · intro signed
      have same : list.version = (found.reflects anchor).display := by
        cases listed
        rfl
      rw [Feed.watch, plan_of_signed signed version, same]
  · intro i found retry deadline anchor now present phase running signed
    have heard : i.answer now present (.ok found) =
        i.takeOver now present (.ofResponse found i.feed.includes anchor) := by
      simp only [answer, phase, running, Feed.listOf]
      rfl
    have outcomes := takeOver_outcomes
      (rfl : (BugList.ofResponse found i.feed.includes anchor).version =
        (found.reflects anchor).display) i now present
    rcases outcomes with ⟨written, _⟩ | ⟨_, finished⟩
    · exact absurd written signed
    · rw [heard, finished]
      rfl
  · intro labels policy now stopping cues i fault run done
    have finished : i.phase = .finished (.error (.token fault)) := by
      rw [outcome?] at done
      split at done
      · rename_i outcome phase
        cases done
        exact phase
      · cases done
    obtain ⟨t, written | source, refused⟩ := (sourced_of_run run).refused fault finished
    · exact absurd written refused.1
    · obtain ⟨cue, member, inside⟩ := source
      exact ⟨cue, member, t, inside, refused⟩

end Informer

/-- The beginning of the year ten thousand. -/
def Instant.tenThousand : Instant := (make? 2932897 0 0).getD .epoch

/-- A bug that changes in the year ten thousand. -/
def BugInfo.tenThousand : BugInfo := { sample 1 0 0 with lastChange := .tenThousand }

namespace Informer

/-- A change in the year ten thousand comes with an event. The watch goes on to the end of its
lifetime, and the informer is done when it would open the next one. -/
theorem next_watch_refused :
    ∃ i cues, (opened {} .empty {} 0 false).run? cues = some i ∧
      i.synced = true ∧ i.version = ⟨.tenThousand⟩ ∧
      i.outcome? = some (.error (.token ⟨"+10000-01-01T00:00:00Z", .invalid⟩)) ∧
      ∃ cue ∈ cues, ∃ t ∈ cue.times, Refuses ⟨"+10000-01-01T00:00:00Z", .invalid⟩ t := by
  have fits : max 1 ({} : Feed).config.eventBufferSize.toNat ≤ Session.longestQueue := by decide
  have asked : (watchingSample {}).follow? (.proceed 16000) =
      some (searchingSample {}, some { changedSince := some (.onFirstDay 6) }) := rfl
  have latest : (SearchResponse.mk [.tenThousand]).latestChange? = some ⟨.tenThousand⟩ := rfl
  have heard := follow?_answer (answer_accepted (i := searchingSample {}) rfl 16000 .epoch rfl rfl
    latest (by decide) (WatchPlan.batch_of_pairwise (by decide)))
  have run : (opened {} .empty {} 0 false).run? _ = some _ :=
    (watchingSample_reached fits _).trans ((run?_cons asked _).trans ((run?_cons heard
      [.proceed 16000, .move 16000 .epoch, .proceed 16000, .expire 1800000, .proceed 1800000,
        .proceed 1800000, .move 1800000 .epoch]).trans rfl))
  exact ⟨_, _, run, rfl, rfl, rfl, (refused_only_in_signed_years {}).2.2 _ _ _ _ _ _ _ run rfl⟩

/-- The list of a bug that changes in the year ten thousand has a token that no watch accepts, and
an informer that lists it is done at once. -/
theorem year_ten_thousand_refused :
    ∃ list i, ({} : Feed).listOf ⟨.epoch⟩ (.ok ⟨[.tenThousand]⟩) = .ok list ∧
      list.version = "+10000-01-01T00:00:00Z" ∧
      ({} : Feed).watch (.ofVersion list.version) 0 .epoch =
        .error (.token ⟨"+10000-01-01T00:00:00Z", .invalid⟩) ∧
      (opened {} .empty {} 0 false).run?
        [.move 0 .epoch, .answer 0 .epoch (.ok ⟨[.tenThousand]⟩)] = some i ∧
      i.outcome? = some (.error (.token ⟨"+10000-01-01T00:00:00Z", .invalid⟩)) :=
  ⟨_, _, rfl, rfl, rfl, rfl, rfl⟩

end Informer

end BugFeed
