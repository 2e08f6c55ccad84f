import Mathlib.Order.Bounds.Basic
import BugFeed.Proofs.Informer.NextSearch
import BugFeed.Proofs.Informer.Server
import BugFeed.Proofs.Informer.Tokens

/-!
# From one list to the next

Between one list and the next an informer opens watch after watch, each when the one before has
reached the end of its lifetime, wherever in its polls it was. What the informer keeps between them
is its version, the latest of the version of the list and of the changes that its watches gave it
(`ResourceVersion.after`, `isGreatest_after`). Each watch starts at the first second that this
version has not covered (`Resumes`), so what it hands over changed after all that was taken before
it.

An informer keeps track of its watches in this way whatever happens to it, until the next list
(`Tracks`, `Tracks.follow`). With what is known of the next search after a watch this gives the
main theorem, `watches_resume_between_lists`.
-/

namespace BugFeed

set_option autoImplicit false

/-! ## The version after some watches -/

/-- The change times of which some events tell. -/
def WatchEvent.times (events : List WatchEvent) : Set Instant :=
  {t | ∃ event ∈ events, ∃ b, event.bug? = some b ∧ b.lastChange = t}

/-- The change times of all events that were taken from some watches. -/
def receivedTimes (watches : List Session) : Set Instant :=
  {t | ∃ s ∈ watches, t ∈ WatchEvent.times s.received}

theorem WatchEvent.times_nil : times [] = ∅ := by simp [times]

theorem WatchEvent.times_cons_of_about {event : WatchEvent} {b : Bug} (about : event.bug? = some b)
    (events : List WatchEvent) : times (event :: events) = insert b.lastChange (times events) := by
  ext t
  simp [times, about, eq_comm (a := t)]

theorem WatchEvent.times_cons_of_fault {event : WatchEvent} (fault : event.bug? = none)
    (events : List WatchEvent) : times (event :: events) = times events := by
  simp [times, fault]

theorem receivedTimes_nil : receivedTimes [] = ∅ := by simp [receivedTimes]

theorem receivedTimes_cons (s : Session) (older : List Session) :
    receivedTimes (s :: older) = WatchEvent.times s.received ∪ receivedTimes older := by
  ext t
  simp [receivedTimes]

namespace ResourceVersion

variable {T : Instant → Prop} {v : ResourceVersion}

/-- The version to which all events that were taken from some watches, newest first, bring a
version. -/
def after (v : ResourceVersion) : List Session → ResourceVersion
  | [] => v
  | s :: older => (v.after older).observeAll s.received

/-- If a version is the greatest of some times, the version after some events is the greatest of
these and those of the events. -/
theorem isGreatest_observeAll {times : Set Instant} (greatest : IsGreatest times v.time)
    (events : List WatchEvent) :
    IsGreatest (times ∪ WatchEvent.times events) (v.observeAll events).time := by
  induction events generalizing v times with
  | nil =>
      rw [WatchEvent.times_nil, Set.union_empty]
      exact greatest
  | cons event events ih =>
      cases about : event.bug? with
      | none =>
          have same : v.observe event = v := by rw [observe, about]
          rw [WatchEvent.times_cons_of_fault about]
          exact ih (same.symm ▸ greatest)
      | some b =>
          have latest : (v.observe event).time = max b.lastChange v.time := by
            rw [observe, about, latest_time, max_comm]
          rw [WatchEvent.times_cons_of_about about, Set.union_insert, ← Set.insert_union]
          exact ih (latest.symm ▸ greatest.insert b.lastChange)

/-- **The version after some watches is the latest of what they gave and of what it was before.** -/
theorem isGreatest_after (v : ResourceVersion) (watches : List Session) :
    IsGreatest (insert v.time (receivedTimes watches)) (v.after watches).time := by
  induction watches with
  | nil =>
      rw [receivedTimes_nil, insert_empty_eq]
      exact isGreatest_singleton
  | cons s older ih =>
      rw [receivedTimes_cons, Set.union_comm, ← Set.insert_union]
      exact isGreatest_observeAll ih s.received

/-- Some watches, newest first, that are told only of certain times: each of them starts at the
first instant that the version after those before it has not covered. -/
structure Resumes (T : Instant → Prop) (v : ResourceVersion) (watches : List Session) : Prop where
  sourced : ∀ s ∈ watches, s.Sourced T
  start : ∀ s older, s :: older <:+ watches → (v.after older).nextVisible? = some s.plan.start

namespace Resumes

variable {s t : Session} {older watches : List Session}

theorem nil (T : Instant → Prop) (v : ResourceVersion) : Resumes T v [] where
  sourced s member := by cases member
  start s older inside := by cases List.suffix_nil.mp inside

theorem cons (resumes : Resumes T v older) (sourced : s.Sourced T)
    (start : (v.after older).nextVisible? = some s.plan.start) : Resumes T v (s :: older) where
  sourced := List.forall_mem_cons.mpr ⟨sourced, resumes.sourced⟩
  start t earlier inside := by
    rcases List.suffix_cons_iff.mp inside with same | before
    · cases same
      exact start
    · exact resumes.start t earlier before

theorem head (resumes : Resumes T v (s :: older)) : s.Sourced T :=
  resumes.sourced s List.mem_cons_self

theorem tail (resumes : Resumes T v (s :: older)) : Resumes T v older where
  sourced := (List.forall_mem_cons.mp resumes.sourced).2
  start t earlier inside := resumes.start t earlier (inside.trans (List.suffix_cons s older))

/-- Where a watch starts does not depend on what becomes of it. -/
theorem replace (resumes : Resumes T v (s :: older)) (sourced : t.Sourced T)
    (plan : t.plan = s.plan) : Resumes T v (t :: older) :=
  resumes.tail.cons sourced (plan ▸ resumes.start s older List.suffix_rfl)

/-- The version after some watches is in a year of four digits if all that they were told is. -/
theorem written (resumes : Resumes T v watches)
    (known : ∀ t, T t → (ResourceVersion.mk t).Written) (written : v.Written) :
    (v.after watches).Written := by
  rcases (v.isGreatest_after watches).1 with same | ⟨s, inside, event, member, b, about, same⟩
  · exact ⟨same ▸ written.low, same ▸ written.high⟩
  · have source := known _ ((resumes.sourced s inside).of_received member about)
    rw [same] at source
    exact source

/-- **A watch begins after all that the watches before it gave.** The version `w` to which they
bring the version of the list is the latest of it and of the changes that they gave; the watch
starts at the first second that `w` has not covered, and what it hands over changed after all of
that, and in a later second than that of the list. -/
theorem begins (resumes : Resumes T v watches) (inside : s :: older <:+ watches) :
    ∃ w c : ResourceVersion, IsGreatest (insert v.time (receivedTimes older)) w.time ∧
      w.nextVisible? = some c ∧ (∀ first ∈ s.cutoffs.head?, first = c) ∧
      ∀ b ∈ s.reported, (∀ t ∈ receivedTimes older, t < b.lastChange) ∧
        v.time.unixSeconds < b.lastChange.unixSeconds := by
  have lawful : s.Lawful := (resumes.sourced s (inside.subset List.mem_cons_self)).lawful
  have greatest := v.isGreatest_after older
  have visible := resumes.start s older inside
  have next := (nextVisible?_eq_some visible).1
  refine ⟨v.after older, s.plan.start, greatest, visible, lawful.told.first_cutoff, ?_⟩
  intro b reported
  have start := lawful.told.start_le_of_reported lawful.passes reported
  constructor
  · intro t received
    have upTo : t ≤ (v.after older).time := greatest.2 (Set.mem_insert_of_mem _ received)
    exact lt_of_lt_of_le (DateTime.lt_of_next_second next upTo) start
  · have listed : v.time ≤ (v.after older).time := greatest.2 (Set.mem_insert _ _)
    have second := DateTime.unixSeconds_le_of_le listed
    have begun := DateTime.unixSeconds_le_of_le start
    omega

end Resumes

end ResourceVersion

namespace Informer

variable {T : Instant → Prop} {v : ResourceVersion} {past older : List Session}
  {i j k : Informer} {now : Nat} {present : Instant} {args : Option SearchArgs}

/-! ## What a run does from list to list -/

/-- The answer from which an informer makes a list at a cue. -/
def lists? (i : Informer) : Cue → Option SearchResponse
  | .answer _ _ (.ok found) =>
    match i.phase with
    | .listing _ _ _ => if i.stopping then none else some found
    | _ => none
  | _ => none

/-- The answers from which an informer makes lists in a run, first one first. -/
def lists (i : Informer) (cues : List Cue) : List SearchResponse := i.along lists? cues

theorem lists_cons {cue : Cue} (first : i.follow? cue = some (j, args)) (cues : List Cue) :
    i.lists (cue :: cues) = (i.lists? cue).toList ++ j.lists cues :=
  along_cons first cues

/-- An informer that makes no list from an answer for one does not look at it. -/
theorem answer_of_unlisted {found : SearchResponse} {retry : Retry} {deadline : Nat}
    {anchor : ResourceVersion} (unlisted : i.lists? (.answer now present (.ok found)) = none)
    (phase : i.phase = .listing retry deadline anchor) : i.answer now present (.ok found) = i := by
  have stopping : i.stopping = true := by simpa [lists?, phase] using unlisted
  simp only [answer, phase, stopping, if_true]

/-! ## The version in a cycle -/

theorem version_openWatch (i : Informer) (now : Nat) (present : Instant) :
    (i.openWatch now present).version = i.version := by
  rcases i.openWatch_cases now present with ⟨plan, _, opened⟩ | ⟨fault, finished⟩ | broken
  · rw [opened]
    rfl
  · rw [finished]
    rfl
  · rw [broken]

theorem version_rewatch (i : Informer) (now : Nat) (present : Instant) :
    (i.rewatch now present).version = i.version := by
  rw [rewatch, version_openWatch]
  rfl

theorem version_attemptFailed (i : Informer) (now : Nat) (retry : Retry) (fault : Fault) :
    (i.attemptFailed now retry fault).version = i.version := by
  rcases i.attemptFailed_cases now retry fault with ⟨next, wake, retrying⟩ | finished
  · rw [retrying]
    rfl
  · rw [finished]
    rfl

theorem version_le_consume (i : Informer) (now : Nat) (present : Instant) (event : WatchEvent) :
    i.version.time ≤ (i.consume now present event).version.time := by
  rcases i.consume_cases now present event with ⟨b, _, absorbed⟩ | ⟨status, _, rewatched | rested⟩
  · rw [absorbed]
    exact le_of_le_of_eq (le_max_left _ _) (ResourceVersion.latest_time i.version _).symm
  · rw [rewatched, version_rewatch]
    exact le_refl _
  · rw [rested]
    exact le_refl _

theorem version_le_act (act : Act i now present j args) : i.version.time ≤ j.version.time := by
  cases act with
  | list =>
      rcases i.beginList_cases now present with asked | finished
      · rw [asked]
        exact le_refl _
      · rw [finished]
        exact le_refl _
  | timeOut => rw [version_attemptFailed]
  | @take s t event => exact version_le_consume { i with phase := .watching t } now present event
  | closed =>
      rw [version_rewatch]
      exact le_refl _
  | retry | giveUp | watch | stop | discard | drained | drain => exact le_refl _

theorem version_le_follow {cue : Cue} (unlisted : i.lists? cue = none)
    (h : i.follow? cue = some (j, args)) : i.version.time ≤ j.version.time := by
  rcases act_of_follow h with
    ⟨now, present, act⟩ | ⟨_, _, rfl⟩ | ⟨now, present, response, rfl, _, told⟩
  · exact version_le_act act
  · exact le_refl _
  · have heard := heard_answer i now present response
    rw [← told] at heard
    cases heard with
    | list phase => rw [told, answer_of_unlisted unlisted phase]
    | failed => rw [version_attemptFailed]
    | ignored | watch | drain => exact le_refl _

/-- What every cue that brings no list preserves, every run without a list preserves. -/
theorem run?_preserves_of_unlisted {P : Informer → Prop} {cues : List Cue}
    (step : ∀ {i j : Informer} {cue : Cue} {args : Option SearchArgs}, cue ∈ cues →
      i.lists? cue = none → i.follow? cue = some (j, args) → P i → P j)
    (run : i.run? cues = some k) (unlisted : i.lists cues = []) (hi : P i) : P k := by
  induction cues generalizing i with
  | nil =>
      cases run
      exact hi
  | cons cue cues ih =>
      obtain ⟨⟨j, args⟩, first, rest⟩ := Option.bind_eq_some_iff.mp run
      rw [lists_cons first, List.append_eq_nil_iff, Option.toList_eq_nil_iff] at unlisted
      refine ih ?_ rest unlisted.2 (step List.mem_cons_self unlisted.1 first hi)
      intro i j later args member
      exact step (List.mem_cons_of_mem _ member)

/-- **The version of an informer never goes back between two lists.** -/
theorem version_le_of_unlisted {cues : List Cue} (run : i.run? cues = some k)
    (unlisted : i.lists cues = []) : i.version.time ≤ k.version.time :=
  run?_preserves_of_unlisted (P := fun j => i.version.time ≤ j.version.time)
    (fun _ unlisted h le => le_trans le (version_le_follow unlisted h)) run unlisted (le_refl _)

/-! ## The watches of a cycle -/

theorem session?_of_watching {s : Session} (phase : i.phase = .watching s) :
    i.session? = some s := by
  rw [session?, phase]

theorem session?_of_draining {s : Session} (phase : i.phase = .draining s) :
    i.session? = some s := by
  rw [session?, phase]

/-- An informer that has left the watches `older` behind since a list of the version `v`, and the
watches `past` before that list. -/
structure Left (T : Instant → Prop) (v : ResourceVersion) (past older : List Session)
    (i : Informer) : Prop where
  past : i.past = older ++ past
  resumes : v.Resumes T older
  version : i.version = v.after older

/-- An informer that has left the watches `older` behind since a list of the version `v`, and may
have one more. While it watches, its version is the one after all of them, and before the first
search of the watch this is the version from which the watch was opened. -/
structure Tracks (T : Instant → Prop) (v : ResourceVersion) (past older : List Session)
    (i : Informer) : Prop where
  past : i.past = older ++ past
  resumes : v.Resumes T (i.session?.toList ++ older)
  version : ∀ s, i.phase = .watching s → i.version = v.after (s :: older)
  unsearched : ∀ s, i.phase = .watching s → s.cutoffs = [] →
    s.Unsearched (i.feed.planFrom i.watchOptions i.version)

/-- An informer without a session. -/
theorem Tracks.of_without (past' : i.past = older ++ past) (resumes : v.Resumes T older)
    (without : i.session? = none) : Tracks T v past older i where
  past := past'
  resumes := by rwa [without]
  version s phase := by
    rw [session?_of_watching phase] at without
    cases without
  unsearched s phase := by
    rw [session?_of_watching phase] at without
    cases without

theorem Left.openWatch (left : Left T v past older i) (now : Nat) (present : Instant) :
    Tracks T v past older (i.openWatch now present) := by
  rcases i.openWatch_outcomes now present with ⟨written, opened | broken⟩ | ⟨_, finished⟩
  · rw [opened]
    refine ⟨left.past, ?_, ?_, ?_⟩
    · refine left.resumes.cons (Session.sourced_start now present _) ?_
      rw [← left.version]
      exact Feed.nextVisible?_truncate written
    · intro s phase
      cases phase
      exact left.version
    · intro s phase _
      cases phase
      exact Session.unsearched_start now present _
  · rw [broken]
    exact .of_without left.past left.resumes rfl
  · rw [finished]
    exact .of_without left.past left.resumes rfl

/-- An informer that has just taken a list over watches from its version on. -/
theorem tracks_takeOver {list : BugList} {m : ResourceVersion} (written : m.Written)
    (version : list.version = m.display) (i : Informer) (now : Nat) (present : Instant) :
    Tracks T m.truncate i.past [] (i.takeOver now present list) := by
  rw [takeOver_display written version]
  exact Left.openWatch ⟨rfl, .nil T m.truncate, rfl⟩ now present

namespace Tracks

variable (tracks : Tracks T v past older i)

include tracks

theorem resumes_of {s : Session} (own : i.session? = some s) : v.Resumes T (s :: older) := by
  have resumes := tracks.resumes
  rw [own] at resumes
  exact resumes

theorem apart (without : i.session? = none) (same : j.past = i.past) (none : j.session? = none) :
    Tracks T v past older j := by
  have resumes := tracks.resumes
  rw [without] at resumes
  exact .of_without (same.trans tracks.past) resumes none

theorem attemptFailed (without : i.session? = none) (now : Nat) (retry : Retry) (fault : Fault) :
    Tracks T v past older (i.attemptFailed now retry fault) := by
  rcases i.attemptFailed_cases now retry fault with ⟨next, wake, retrying⟩ | finished
  · rw [retrying]
    exact tracks.apart without rfl rfl
  · rw [finished]
    exact tracks.apart without rfl rfl

/-- The watch goes on. -/
theorem watches {s t : Session} (phase : i.phase = .watching s) (sourced : t.Sourced T)
    (plan : t.plan = s.plan) (version : i.version = v.after (t :: older))
    (unsearched : t.cutoffs = [] → t.Unsearched (i.feed.planFrom i.watchOptions i.version)) :
    Tracks T v past older { i with phase := .watching t } where
  past := tracks.past
  resumes := (tracks.resumes_of (session?_of_watching phase)).replace sourced plan
  version u same := by
    cases same
    exact version
  unsearched u same := by
    cases same
    exact unsearched

/-- The watch that was shut down goes on. -/
theorem drains {s t : Session} (own : i.session? = some s) (sourced : t.Sourced T)
    (plan : t.plan = s.plan) : Tracks T v past older { i with phase := .draining t } where
  past := tracks.past
  resumes := (tracks.resumes_of own).replace sourced plan
  version u same := by cases same
  unsearched u same := by cases same

theorem note (now : Nat) (n : InformerNote) : Tracks T v past older (i.note now n) :=
  ⟨tracks.past, tracks.resumes, tracks.version, tracks.unsearched⟩

/-- The version stays while the watch gives nothing. -/
theorem version_of_received {s t : Session} (phase : i.phase = .watching s)
    (received : t.received = s.received) : i.version = v.after (t :: older) := by
  rw [tracks.version s phase, ResourceVersion.after, ResourceVersion.after, received]

/-- The version follows the events that the watch gives. -/
theorem after_take {s t : Session} {event : WatchEvent} (phase : i.phase = .watching s)
    (taken : s.take? now = some (event, t)) :
    v.after (t :: older) = i.version.observe event := by
  rw [tracks.version s phase, ResourceVersion.after, ResourceVersion.after,
    Session.received_of_take taken, ResourceVersion.observeAll_append]

/-- The watch is left behind. -/
theorem leaves {s : Session} (phase : i.phase = .watching s)
    (same : j.past = i.session?.toList ++ i.past) (version : j.version = i.version) :
    Left T v past (s :: older) j where
  past := by
    rw [same, session?_of_watching phase, tracks.past]
    rfl
  resumes := tracks.resumes_of (session?_of_watching phase)
  version := version.trans (tracks.version s phase)

theorem rewatch {s : Session} (phase : i.phase = .watching s) (now : Nat) (present : Instant) :
    Tracks T v past (s :: older) (i.rewatch now present) := by
  have left : Left T v past (s :: older)
      ({ i.leave with relists := 0 }.count (.cycled .rewatch)) := tracks.leaves phase rfl rfl
  exact left.openWatch now present

theorem rest {s : Session} (phase : i.phase = .watching s) (now : Nat) :
    Tracks T v past (s :: older) (i.rest now) := by
  have left : Left T v past (s :: older) i.leave := tracks.leaves phase rfl rfl
  exact .of_without left.past left.resumes rfl

/-- The change that an event reports is taken over. A watch that gives one has searched. -/
theorem absorb {s t : Session} {event : WatchEvent} {b : Bug} (phase : i.phase = .watching s)
    (taken : s.take? now = some (event, t)) (about : event.bug? = some b) :
    Tracks T v past older (({ i with phase := .watching t } : Informer).absorb now event b) := by
  have resumes := tracks.resumes_of (session?_of_watching phase)
  have plan : t.plan = s.plan := by
    rw [(Session.queue_of_take taken).2]
    rfl
  refine ⟨tracks.past, resumes.replace (resumes.head.take taken) plan, ?_, ?_⟩
  · intro u same
    cases same
    rw [tracks.after_take phase taken, ResourceVersion.observe, about]
    rfl
  · intro u same cutoffs
    cases same
    -- Before its first search a watch gives nothing but the fault that ends it.
    rw [Session.cutoffs_of_take taken] at cutoffs
    obtain ⟨_, status, rfl, _⟩ := (tracks.unsearched s phase cutoffs).take taken
    cases about

theorem take {s t : Session} {event : WatchEvent} (phase : i.phase = .watching s)
    (taken : s.take? now = some (event, t)) (present : Instant) :
    ∃ older', Tracks T v past older'
      (({ i with phase := .watching t } : Informer).consume now present event) := by
  rcases ({ i with phase := .watching t } : Informer).consume_cases now present event with
    ⟨b, about, absorbed⟩ | ⟨status, rfl, outcome⟩
  · rw [absorbed]
    exact ⟨older, tracks.absorb phase taken about⟩
  · have sourced := (tracks.resumes_of (session?_of_watching phase)).head.take taken
    have plan : t.plan = s.plan := by
      rw [(Session.queue_of_take taken).2]
      rfl
    have ended : Tracks T v past older { i with phase := .watching t } := by
      refine tracks.watches phase sourced plan (tracks.after_take phase taken).symm ?_
      intro cutoffs
      rw [Session.cutoffs_of_take taken] at cutoffs
      exact ((tracks.unsearched s phase cutoffs).take taken).1
    refine ⟨t :: older, ?_⟩
    rcases outcome with rewatched | rested
    · rw [rewatched]
      exact (ended.note now _).rewatch rfl now present
    · rw [rested]
      exact (ended.note now _).rest rfl now

/-- **Whatever an informer does by itself, it keeps track of its watches.** -/
theorem act (act : Act i now present j args) : ∃ older', Tracks T v past older' j := by
  cases act with
  | list phase =>
      have without : i.session? = none := by rw [session?, phase]
      refine ⟨older, ?_⟩
      rcases i.beginList_cases now present with asked | finished
      · rw [asked]
        exact tracks.apart without rfl rfl
      · rw [finished]
        exact tracks.apart without rfl rfl
  | timeOut phase =>
      have without : i.session? = none := by rw [session?, phase]
      exact ⟨older, tracks.attemptFailed without now _ _⟩
  | retry phase => exact ⟨older, tracks.apart (by rw [session?, phase]) rfl rfl⟩
  | giveUp without => exact ⟨older, tracks.apart without rfl rfl⟩
  | take phase taken => exact tracks.take phase taken present
  | @closed s phase => exact ⟨s :: older, (tracks.note now _).rewatch phase now present⟩
  | watch phase move =>
      have sourced := (tracks.resumes_of (session?_of_watching phase)).head.move move
      have version := tracks.version_of_received phase move.received
      refine ⟨older, tracks.watches phase sourced move.plan version ?_⟩
      intro cutoffs
      have before := move.traffic.cutoffs
      rw [cutoffs, List.map_nil, List.nil_eq_append_iff, List.map_eq_nil_iff] at before
      exact (tracks.unsearched _ phase before.1).move_of_cutoffs move cutoffs
  | stop phase =>
      have own := session?_of_watching phase
      have sourced := (tracks.resumes_of own).head.stop now
      exact ⟨older, tracks.drains own sourced (Session.plan_fire _ now _)⟩
  | @discard s t event phase taken =>
      have own := session?_of_draining phase
      have sourced := (tracks.resumes_of own).head.take taken
      have plan : t.plan = s.plan := by
        rw [(Session.queue_of_take taken).2]
        rfl
      exact ⟨older, (tracks.drains own sourced plan).note now _⟩
  | @drained s phase =>
      have own := session?_of_draining phase
      have past' : i.leave.past = s :: older ++ past := by
        rw [leave, own, tracks.past]
        rfl
      exact ⟨s :: older, .of_without past' (tracks.resumes_of own) rfl⟩
  | drain phase move =>
      have own := session?_of_draining phase
      exact ⟨older, tracks.drains own ((tracks.resumes_of own).head.move move) move.plan⟩

theorem heard {response : Except TransportFault SearchResponse}
    (unlisted : i.lists? (.answer now present response) = none)
    (brings : ∀ found, response = .ok found → ∀ f ∈ found.bugs, T f.lastChange) :
    Tracks T v past older (i.answer now present response) := by
  have heard := heard_answer i now present response
  generalize told : i.answer now present response = j at heard ⊢
  cases heard with
  | ignored => exact tracks
  | list phase =>
      rw [← told, answer_of_unlisted unlisted phase]
      exact tracks
  | failed phase => exact tracks.attemptFailed (by rw [session?, phase]) now _ _
  | watch phase hears =>
      have sourced := (tracks.resumes_of (session?_of_watching phase)).head.hears hears brings
      have version := tracks.version_of_received phase hears.quiet.received
      refine tracks.watches phase sourced hears.plan version ?_
      intro cutoffs
      have before := tracks.unsearched _ phase (hears.quiet.cutoffs.symm.trans cutoffs)
      rw [before.lawful.told.unasked before.cutoffs hears]
      exact before
  | drain phase hears =>
      have own := session?_of_draining phase
      exact tracks.drains own ((tracks.resumes_of own).head.hears hears brings) hears.plan

/-- **An informer keeps track of its watches at every cue that brings no list.** -/
theorem follow {cue : Cue} (unlisted : i.lists? cue = none)
    (brings : ∀ now present found, cue = .answer now present (.ok found) →
      ∀ f ∈ found.bugs, T f.lastChange) (h : i.follow? cue = some (j, args)) :
    ∃ older', Tracks T v past older' j := by
  rcases act_of_follow h with
    ⟨now, present, act⟩ | ⟨_, _, rfl⟩ | ⟨now, present, response, rfl, _, rfl⟩
  · exact tracks.act act
  · exact ⟨older, tracks.past, tracks.resumes, tracks.version, tracks.unsearched⟩
  · refine ⟨older, tracks.heard unlisted ?_⟩
    rintro found rfl
    exact brings now present found rfl

/-- A watch that has not searched yet will start from the version of the informer. -/
theorem awaits {s : Session} (phase : i.phase = .watching s) (cutoffs : s.cutoffs = []) :
    Awaits i i := by
  refine ⟨rfl, rfl, rfl, ?_⟩
  rw [phase]
  exact tracks.unsearched s phase cutoffs

end Tracks

/-- **From a list on an informer keeps track of its watches in every run, until the next list.** -/
theorem tracks_of_run {cues : List Cue} (run : i.run? cues = some k) (unlisted : i.lists cues = [])
    (brings : ∀ now present found, .answer now present (.ok found) ∈ cues →
      ∀ f ∈ found.bugs, T f.lastChange)
    (tracks : Tracks T v past older i) : ∃ older', Tracks T v past older' k := by
  refine run?_preserves_of_unlisted (P := fun j => ∃ older', Tracks T v past older' j) ?_ run
    unlisted ⟨older, tracks⟩
  rintro i j cue args member unlisted h ⟨older', tracks⟩
  refine tracks.follow unlisted ?_ h
  rintro now present found rfl
  exact brings now present found member

/-! ## Resumption -/

/-- **Between two lists each watch begins where all before it have ended.** An informer makes a list
of an answer, and until the next list all that it is told of changed in years of four digits. Let
`v` be the version that the token of the list denotes, and let `k` be the informer at any time until
the next list, with the watches that it has opened since this one, newest first.

* While it watches, its version is the latest of `v` and of all changes that these watches gave it.
  Until the next list it never goes back.
* Each watch `s` goes on from where the watches `older` before it came to: the cutoff of its first
  search is the first second that the latest of `v` and of what they gave has not covered. What it
  hands over changed later than all that they gave and than every bug of the list.
* If the watch has not searched yet, the next search is its first one, with the cutoff after the
  version of the informer. If the watch tells that it reached the end of its lifetime, the next
  search, whatever happens until then, is that of another watch with the cutoff after this version,
  and no list comes between. -/
theorem watches_resume_between_lists {retry : Retry} {deadline : Nat} {anchor : ResourceVersion}
    {found : SearchResponse} {cues : List Cue} (phase : i.phase = .listing retry deadline anchor)
    (running : i.stopping = false) (written : (found.reflects anchor).Written)
    (years : ∀ now present other, .answer now present (.ok other) ∈ cues →
      ∀ f ∈ other.bugs, (ResourceVersion.mk f.lastChange).Written)
    (run : (i.answer now present (.ok found)).run? cues = some k)
    (unlisted : (i.answer now present (.ok found)).lists cues = []) :
    ∃ v watches,
      ResourceVersion.parse (BugList.ofResponse found i.feed.includes anchor).version = .ok v ∧
      k.sessions = watches ++ i.past ∧
      (∀ s, k.phase = .watching s →
        IsGreatest (insert v.time (receivedTimes watches)) k.version.time) ∧
      (∀ later l, k.run? later = some l → k.lists later = [] → k.version.time ≤ l.version.time) ∧
      (∀ s older, s :: older <:+ watches → ∃ w c : ResourceVersion,
        IsGreatest (insert v.time (receivedTimes older)) w.time ∧ w.nextVisible? = some c ∧
        (∀ first ∈ s.cutoffs.head?, first = c) ∧
        ∀ b ∈ s.reported, (∀ t ∈ receivedTimes older, t < b.lastChange) ∧
          ∀ f ∈ found.bugs, f.lastChange < b.lastChange) ∧
      ∀ s, k.phase = .watching s → ∃ c, k.version.nextVisible? = some c ∧
        (s.cutoffs = [] → k.NextSearch
          { k.feed.argsFor k.watchOptions with changedSince := some c.time }) ∧
        ∀ t status now present j args, k.stopping = false →
          s.take? now = some (.error status, t) → status.reason = .expired →
          k.follow? (.move now present) = some (j, args) →
            args = none ∧ j.NextSearch
              { k.feed.argsFor k.watchOptions with changedSince := some c.time } := by
  have listed : i.answer now present (.ok found) =
      i.takeOver now present (.ofResponse found i.feed.includes anchor) := by
    simp only [answer, phase, running, Feed.listOf]
    rfl
  have begun : Tracks (fun t => (ResourceVersion.mk t).Written) (found.reflects anchor).truncate
      i.past [] (i.answer now present (.ok found)) := by
    rw [listed]
    exact tracks_takeOver written rfl i now present
  obtain ⟨older, tracks⟩ := tracks_of_run run unlisted years begun
  refine ⟨(found.reflects anchor).truncate, k.session?.toList ++ older, ?_, ?_, ?_, ?_, ?_, ?_⟩
  · exact ResourceVersion.parse_display written.low written.high
  · rw [sessions, tracks.past, List.append_assoc]
  · intro s watching
    rw [tracks.version s watching, session?_of_watching watching]
    exact ResourceVersion.isGreatest_after _ _
  · intro later l goes none
    exact version_le_of_unlisted goes none
  · intro s before inside
    obtain ⟨w, c, greatest, visible, first, reported⟩ := tracks.resumes.begins inside
    refine ⟨w, c, greatest, visible, first, ?_⟩
    intro b member
    refine ⟨(reported b member).1, ?_⟩
    intro f told
    refine DateTime.lt_of_unixSeconds_lt (lt_of_le_of_lt ?_ (reported b member).2)
    have upTo := DateTime.unixSeconds_le_of_le (SearchResponse.le_reflects anchor told)
    exact upTo
  · intro s watching
    have reads : k.version.Written := by
      have resumes := tracks.resumes_of (session?_of_watching watching)
      rw [tracks.version s watching]
      exact resumes.written (fun _ => id) ⟨written.low, written.high⟩
    refine ⟨Feed.startAfter k.version.truncate, Feed.nextVisible?_truncate reads, ?_, ?_⟩
    · intro cutoffs
      exact (tracks.awaits watching cutoffs).nextSearch
    · intro t status now present j args going taken expired moves
      obtain ⟨none, awaits⟩ := awaits_of_expired watching going taken expired moves
      exact ⟨none, awaits.nextSearch⟩

/-- A watch is told of a change, hands it over, and goes on to the end of its lifetime. -/
def untilExpiry : List Cue :=
  [.proceed 16000, .answer 16000 .epoch (.ok ⟨[.sample 2 0 8]⟩), .proceed 16000,
    .move 16000 .epoch, .proceed 16000, .expire 1800000, .proceed 1800000, .proceed 1800000]

/-- A change in the second :08 comes with an event before the watch reaches the end of its lifetime.
The next search asks for what changed since the second :09. -/
theorem search_after_later_change :
    ∃ k j, (listingSample {}).stopping = false ∧
      ((listingSample {}).answer 0 .epoch (.ok ⟨[.sample 1 0 5]⟩)).run? untilExpiry = some k ∧
      ((listingSample {}).answer 0 .epoch (.ok ⟨[.sample 1 0 5]⟩)).lists untilExpiry = [] ∧
      k.version = ⟨.onFirstDay 8⟩ ∧ k.follow? (.move 1800000 .epoch) = some (j, none) ∧
      j.NextSearch { changedSince := some (.onFirstDay 9) } := by
  have fits : max 1 ({} : Feed).config.eventBufferSize.toNat ≤ Session.longestQueue := by decide
  have listed := answer_listingSample fits
  have asked : (watchingSample {}).follow? (.proceed 16000) =
      some (searchingSample {}, some { changedSince := some (.onFirstDay 6) }) := rfl
  have latest : (SearchResponse.mk [.sample 2 0 8]).latestChange? = some ⟨.onFirstDay 8⟩ := rfl
  have heard := follow?_answer (answer_accepted (i := searchingSample {}) rfl 16000 .epoch rfl rfl
    latest (by decide) (WatchPlan.batch_of_pairwise (by decide)))
  have unlisted : ((listingSample {}).answer 0 .epoch (.ok ⟨[.sample 1 0 5]⟩)).lists untilExpiry =
      [] := by
    rw [listed, untilExpiry, lists_cons asked, lists_cons heard]
    rfl
  obtain ⟨k, s, t, status, j, watched, feed, version, watching, going, taken, expired, moves⟩ :
      ∃ k s t status j, (watchingSample {}).run? untilExpiry = some k ∧ k.feed = {} ∧
        k.version = ⟨.onFirstDay 8⟩ ∧ k.phase = .watching s ∧ k.stopping = false ∧
        s.take? 1800000 = some (.error status, t) ∧ status.reason = .expired ∧
        k.follow? (.move 1800000 .epoch) = some (j, none) :=
    ⟨_, _, _, _, _, (run?_cons asked _).trans ((run?_cons heard _).trans rfl), rfl, rfl, rfl, rfl,
      rfl, rfl, rfl⟩
  have run := (congrArg (run? · untilExpiry) listed).trans watched
  have written : ((SearchResponse.mk [.sample 1 0 5]).reflects ⟨.epoch⟩).Written := by decide
  have years : ∀ now present other, .answer now present (.ok other) ∈ untilExpiry →
      ∀ f ∈ other.bugs, (ResourceVersion.mk f.lastChange).Written := by
    intro now present other member f told
    simp [untilExpiry] at member
    obtain ⟨rfl, rfl, rfl⟩ := member
    cases List.mem_singleton.mp told
    decide
  obtain ⟨v, watches, _, _, _, _, _, next⟩ :=
    watches_resume_between_lists rfl rfl written years run unlisted
  obtain ⟨c, visible, _, after⟩ := next s watching
  obtain ⟨_, search⟩ := after t status 1800000 .epoch j none going taken expired moves
  rw [version] at visible
  rw [feed, ← Option.some.inj visible] at search
  exact ⟨k, j, rfl, run, unlisted, version, moves, search⟩

end Informer

end BugFeed
