import BugFeed.Proofs.Informer.Opening
import BugFeed.Proofs.Store.Contents

/-!
# What a poll leaves in the store

The events that an informer has taken over since its last list determine how new its copies are:
each left a copy behind that is no older than the one it reports, and every copy is a shown
version (`Sound`, `sound_of_run`).

So when all events of a finished poll have been taken over, the store has a copy of every shown
bug of its answer that is no older than the answer's. A copy that is older belongs to a bug that
the answer shows in a hidden version: nothing takes it out of the store
(`superseded_only_by_hidden`).
-/

namespace BugFeed

set_option autoImplicit false

variable {feed : Feed}

/-! ## Sessions of a feed -/

/-- A session that belongs to a feed: its notes tell of its polls, it shows what the feed shows,
and so does what waits in its queue. -/
structure Session.Belongs (feed : Feed) (s : Session) : Prop where
  told : s.Told
  shows : s.plan.includes = feed.includes
  presents : s.Presents

namespace Session.Belongs

variable {s t : Session} {now : Nat}

theorem start {options : ListOptions} {plan : WatchPlan} (planned : feed.plan options = .ok plan)
    (now : Nat) (present : Instant) : (Session.start now present plan).Belongs feed where
  told := told_start now present plan
  shows := (Informer.plan_cases planned).2.1
  presents event member := by cases member

theorem move {args : Option SearchArgs} (belongs : s.Belongs feed) (move : s.Move now t args) :
    t.Belongs feed where
  told := belongs.told.move move
  shows := (congrArg WatchPlan.includes move.plan).trans belongs.shows
  presents := belongs.presents.move belongs.told move

theorem hears {response : Except TransportFault SearchResponse} (belongs : s.Belongs feed)
    (hears : s.Hears now response t) : t.Belongs feed where
  told := belongs.told.hears hears
  shows := (congrArg WatchPlan.includes hears.plan).trans belongs.shows
  presents := belongs.presents.hears hears

theorem take {event : WatchEvent} (belongs : s.Belongs feed)
    (taken : s.take? now = some (event, t)) : t.Belongs feed where
  told := belongs.told.take taken
  shows := by
    rw [(queue_of_take taken).2]
    exact belongs.shows
  presents := belongs.presents.take taken

theorem stop (belongs : s.Belongs feed) (now : Nat) : (s.stop now).Belongs feed where
  told := belongs.told.fire now .requested
  shows := (congrArg WatchPlan.includes (s.plan_fire now .requested)).trans belongs.shows
  presents := belongs.presents.fire now .requested

end Session.Belongs

namespace Informer

/-! ## Events taken over -/

/-- The events that were taken over since the last list, of which a log tells. -/
def appliedSince : List (Nat × InformerNote) → List WatchEvent
  | [] => []
  | (_, .listed _) :: _ => []
  | (_, .applied event) :: log => event :: appliedSince log
  | _ :: log => appliedSince log

/-- The events that an informer has taken over since its last list. -/
def applied (i : Informer) : List WatchEvent := appliedSince i.log

/-- All sessions of an informer: the present one and those left behind. -/
def sessions (i : Informer) : List Session := i.session?.toList ++ i.past

/-! ## Sound informers -/

/-- An informer whose sessions belong to its feed, whose copies are shown versions, and which has
for each event taken over since its last list a copy that is no older. -/
structure Sound (feed : Feed) (i : Informer) : Prop where
  same : i.feed = feed
  belongs : ∀ s ∈ i.sessions, s.Belongs feed
  shown : ∀ name b, i.store.get? name = some b → feed.includes b.info = true
  reached : ∀ event ∈ i.applied, ∀ b, event.bug? = some b →
    ∃ kept, i.store.get? b.name = some kept ∧ b.lastChange ≤ kept.lastChange

variable {i j : Informer} {now : Nat} {present : Instant} {args : Option SearchArgs}

theorem Sound.opened (feed : Feed) (labels : Catalog String) (policy : BackoffPolicy) (now : Nat)
    (stopping : Bool) : Sound feed (opened feed labels policy now stopping) where
  same := rfl
  belongs s member := by cases member
  shown name b found := by cases found
  reached event member := by cases member

/-- An informer stays sound while its store and what it has taken over stay the same and new
sessions belong to the feed. -/
theorem Sound.of_same (sound : Sound feed i) (feeds : j.feed = i.feed) (store : j.store = i.store)
    (applied : j.applied = i.applied)
    (sessions : ∀ s ∈ j.sessions, s ∈ i.sessions ∨ s.Belongs feed) : Sound feed j where
  same := feeds.trans sound.same
  belongs s member := (sessions s member).elim (sound.belongs s) id
  shown name b found := by
    rw [store] at found
    exact sound.shown name b found
  reached event member := by
    rw [applied] at member
    rw [store]
    exact sound.reached event member

theorem mem_sessions_of_watching {s : Session} (phase : i.phase = .watching s) :
    s ∈ i.sessions := by
  rw [sessions, session?, phase]
  exact List.mem_cons_self

theorem mem_sessions_of_draining {s : Session} (phase : i.phase = .draining s) :
    s ∈ i.sessions := by
  rw [sessions, session?, phase]
  exact List.mem_cons_self

theorem past_subset_sessions (i : Informer) {s : Session} (member : s ∈ i.past) : s ∈ i.sessions :=
  List.mem_append_right _ member

theorem Sound.finish (sound : Sound feed i) (now : Nat) (outcome : Except Fault Unit) :
    Sound feed (i.finish now outcome) :=
  sound.of_same rfl rfl rfl fun _ member => .inl (i.past_subset_sessions member)

theorem Sound.enters (sound : Sound feed i) {s : Session} (belongs : s.Belongs feed)
    {phase : InformerPhase} (own : ({ i with phase := phase } : Informer).session? = some s) :
    Sound feed { i with phase := phase } := by
  refine sound.of_same rfl rfl rfl ?_
  intro t member
  rw [sessions, own] at member
  rcases List.mem_cons.mp member with rfl | member
  · exact .inr belongs
  · exact .inl (i.past_subset_sessions member)

theorem Sound.watching (sound : Sound feed i) {s : Session} (belongs : s.Belongs feed) :
    Sound feed { i with phase := .watching s } :=
  sound.enters belongs rfl

theorem Sound.draining (sound : Sound feed i) {s : Session} (belongs : s.Belongs feed) :
    Sound feed { i with phase := .draining s } :=
  sound.enters belongs rfl

theorem Sound.leave (sound : Sound feed i) : Sound feed i.leave := by
  refine sound.of_same rfl rfl rfl fun s member => .inl ?_
  rcases List.mem_append.mp member with member | member
  · exact List.mem_append_left _ member
  · exact member

theorem Sound.ask (sound : Sound feed i) (now : Nat) (present : Instant) (retry : Retry) :
    Sound feed (i.ask now present retry).1 :=
  sound.of_same rfl rfl rfl fun _ member => .inl (i.past_subset_sessions member)

theorem Sound.beginList (sound : Sound feed i) (now : Nat) (present : Instant) :
    Sound feed (i.beginList now present).1 := by
  have began : Sound feed ((i.count (.cycled .list)).note now .began) :=
    sound.of_same rfl rfl rfl fun _ member => .inl member
  rcases i.beginList_cases now present with asked | finished
  · rw [asked]
    exact began.ask now present _
  · rw [finished]
    exact began.finish now _

theorem Sound.attemptFailed (sound : Sound feed i) (now : Nat) (retry : Retry) (fault : Fault) :
    Sound feed (i.attemptFailed now retry fault) := by
  have noted : Sound feed (i.note now (.failed fault)) :=
    sound.of_same rfl rfl rfl fun _ member => .inl member
  rcases i.attemptFailed_cases now retry fault with ⟨next, wake, retrying⟩ | finished
  · rw [retrying]
    exact noted.of_same rfl rfl rfl fun _ member => .inl (i.past_subset_sessions member)
  · rw [finished]
    exact noted.finish now _

theorem Sound.openWatch (sound : Sound feed i) (now : Nat) (present : Instant) :
    Sound feed (i.openWatch now present) := by
  rcases i.openWatch_cases now present with ⟨plan, planned, opened⟩ | ⟨fault, finished⟩ | broken
  · rw [opened]
    rw [sound.same] at planned
    exact (sound.watching (.start planned now present)).of_same rfl rfl rfl
      fun _ member => .inl member
  · rw [finished]
    exact sound.finish now _
  · rw [broken]
    exact sound.of_same rfl rfl rfl fun _ member => .inl (i.past_subset_sessions member)

theorem Sound.rewatch (sound : Sound feed i) (now : Nat) (present : Instant) :
    Sound feed (i.rewatch now present) := by
  have left : Sound feed ({ i.leave with relists := 0 }.count (.cycled .rewatch)) :=
    sound.leave.of_same rfl rfl rfl fun _ member => .inl member
  exact left.openWatch now present

theorem Sound.closed (sound : Sound feed i) (now : Nat) (status : Option Status) :
    Sound feed (i.note now (.closed status)) :=
  sound.of_same rfl rfl rfl fun _ member => .inl member

theorem Sound.rest (sound : Sound feed i) (now : Nat) : Sound feed (i.rest now) :=
  sound.leave.of_same rfl rfl rfl fun _ member => .inl (i.leave.past_subset_sessions member)

theorem Sound.takeOver (sound : Sound feed i) (now : Nat) (present : Instant)
    (found : SearchResponse) (anchor : ResourceVersion) :
    Sound feed (i.takeOver now present (.ofResponse found feed.includes anchor)) := by
  rcases i.takeOver_cases now present (.ofResponse found feed.includes anchor) with
    ⟨version, _, taken⟩ | ⟨fault, finished⟩
  · rw [taken]
    refine Sound.openWatch ?_ now present
    refine ⟨sound.same, sound.belongs, ?_, ?_⟩
    · intro name b kept
      obtain ⟨inside, _⟩ := Store.mem_of_get?_replace kept
      obtain ⟨f, shown, rfl⟩ := List.mem_map.mp inside
      exact (List.mem_filter.mp shown).2
    · intro event member
      cases member
  · rw [finished]
    exact sound.finish now _

theorem Sound.absorb (sound : Sound feed i) (now : Nat) {event : WatchEvent} {b : Bug}
    (about : event.bug? = some b) (shown : feed.includes b.info = true) :
    Sound feed (i.absorb now event b) where
  same := sound.same
  belongs := sound.belongs
  shown name kept found := by
    rcases Store.get?_apply found with before | ⟨reported, _⟩
    · exact sound.shown name kept before
    · rw [about] at reported
      cases reported
      exact shown
  reached e member c reports := by
    rcases List.mem_cons.mp member with rfl | member
    · exact i.store.exists_get?_apply reports
    · obtain ⟨kept, found, newer⟩ := sound.reached e member c reports
      obtain ⟨later, still, hle⟩ := Store.exists_le_get?_apply found event
      exact ⟨later, still, le_trans newer hle⟩

theorem Sound.consume (sound : Sound feed i) (now : Nat) (present : Instant) {event : WatchEvent}
    (shown : ∀ b, event.bug? = some b → feed.includes b.info = true) :
    Sound feed (i.consume now present event) := by
  rcases i.consume_cases now present event with
    ⟨b, about, absorbed⟩ | ⟨status, _, rewatched | rested⟩
  · rw [absorbed]
    exact sound.absorb now about (shown b about)
  · rw [rewatched]
    exact (sound.closed now _).rewatch now present
  · rw [rested]
    exact (sound.closed now _).rest now

/-! ## Runs -/

theorem Sound.act (sound : Sound feed i) (act : Act i now present j args) : Sound feed j := by
  cases act with
  | list => exact sound.beginList now present
  | timeOut => exact sound.attemptFailed now _ _
  | retry => exact sound.ask now present _
  | giveUp => exact sound.finish now _
  | @take s t event phase taken =>
      have belongs := sound.belongs s (mem_sessions_of_watching phase)
      refine (sound.watching (belongs.take taken)).consume now present ?_
      intro b about
      have waits : event ∈ s.queue := by
        rw [(Session.queue_of_take taken).1]
        exact List.mem_cons_self
      obtain ⟨f, rfl, shown⟩ := belongs.presents event waits b about
      rw [belongs.shows] at shown
      exact shown
  | closed =>
      exact (sound.closed now _).rewatch now present
  | watch phase move =>
      exact sound.watching ((sound.belongs _ (mem_sessions_of_watching phase)).move move)
  | stop phase =>
      exact sound.draining ((sound.belongs _ (mem_sessions_of_watching phase)).stop now)
  | discard phase taken =>
      have belongs := (sound.belongs _ (mem_sessions_of_draining phase)).take taken
      exact (sound.draining belongs).of_same rfl rfl rfl fun _ member => .inl member
  | drained => exact sound.leave.finish now _
  | drain phase move =>
      exact sound.draining ((sound.belongs _ (mem_sessions_of_draining phase)).move move)

theorem Sound.heard {response : Except TransportFault SearchResponse} (sound : Sound feed i)
    (heard : Heard i now present response j) : Sound feed j := by
  cases heard with
  | ignored => exact sound
  | list =>
      rw [sound.same]
      exact sound.takeOver now present _ _
  | failed => exact sound.attemptFailed now _ _
  | watch phase hears =>
      exact sound.watching ((sound.belongs _ (mem_sessions_of_watching phase)).hears hears)
  | drain phase hears =>
      exact sound.draining ((sound.belongs _ (mem_sessions_of_draining phase)).hears hears)

theorem Sound.follow {cue : Cue} (h : i.follow? cue = some (j, args)) (sound : Sound feed i) :
    Sound feed j := by
  rcases act_of_follow h with
    ⟨now, present, act⟩ | ⟨_, _, rfl⟩ | ⟨now, present, response, _, _, rfl⟩
  · exact sound.act act
  · exact sound.of_same rfl rfl rfl fun _ member => .inl member
  · exact sound.heard (heard_answer i now present response)

/-- **In every run of an informer, its copies are shown versions, and for each event taken over
since the last list there is a copy that is no older.** -/
theorem sound_of_run {labels : Catalog String} {policy : BackoffPolicy} {stopping : Bool}
    {cues : List Cue} (run : (opened feed labels policy now stopping).run? cues = some i) :
    Sound feed i :=
  run?_preserves (fun h sound => sound.follow h) run (.opened feed labels policy now stopping)

/-- **A version that a finished poll has superseded stays only if the newer one is hidden.** In
every run of an informer, once all events of a poll that handed its whole batch over have been
taken over since the last list, the store has for every shown bug of the answer that changed at
the cutoff or later a copy that is no older. A copy that is older than such a bug is a shown
version of it, and the bug itself is hidden. -/
theorem superseded_only_by_hidden {labels : Catalog String} {policy : BackoffPolicy}
    {stopping : Bool} {cues : List Cue}
    (run : (opened feed labels policy now stopping).run? cues = some i) {s : Session}
    (mine : s ∈ i.sessions) {p : Poll} (member : p ∈ s.polls) (finished : p.outcome = some .ok)
    {found : SearchResponse} (answered : p.answer = some (.ok found))
    (taken : ∀ event ∈ p.events, event ∈ i.applied) {b : BugInfo} (inside : b ∈ found.bugs)
    (late : p.cutoff.time ≤ b.lastChange) :
    (feed.includes b = true → ∃ kept, i.store.get? (Bug.nameOf b.id) = some kept ∧
        b.lastChange ≤ kept.lastChange) ∧
      ∀ kept, i.store.get? (Bug.nameOf b.id) = some kept → kept.lastChange < b.lastChange →
        feed.includes b = false ∧ feed.includes kept.info = true := by
  have sound := sound_of_run run
  have belongs := sound.belongs s mine
  have reached : feed.includes b = true → ∃ kept, i.store.get? (Bug.nameOf b.id) = some kept ∧
      b.lastChange ≤ kept.lastChange := by
    intro shown
    rw [← belongs.shows] at shown
    rcases belongs.told.poll_cases member with ⟨after, concluded⟩ | ⟨fault, failed, _⟩ |
      ⟨unfinished, _⟩
    · rcases concluded.handed_or_withheld answered inside shown late with handed | ⟨skipped, _⟩
      · exact sound.reached _ (taken _ handed) (.ofInfo b) (s.plan.bug?_eventOf _)
      · rw [skipped] at finished
        cases finished
    · rw [failed] at answered
      cases answered
    · rw [unfinished] at finished
      cases finished
  refine ⟨reached, fun kept found older => ⟨?_, sound.shown _ kept found⟩⟩
  cases shown : feed.includes b with
  | false => rfl
  | true =>
      obtain ⟨newer, same, hle⟩ := reached shown
      rw [found] at same
      cases same
      exact absurd older (not_lt.mpr hle)

/-- A newer version that is shown takes the place of the older one. -/
theorem shown_version_replaces :
    ∃ i s kept, (opened .unclosed .empty {} 0 false).run?
        [.move 0 .epoch, .answer 0 .epoch (.ok ⟨[.sample 1 0 5]⟩), .proceed 16000,
          .answer 16000 .epoch (.ok ⟨[.sample 1 0 20]⟩), .proceed 16000, .proceed 16000,
          .move 16000 .epoch] = some i ∧
      s ∈ i.sessions ∧ i.store.get? (Bug.nameOf 1) = some kept ∧
      .onFirstDay 20 ≤ kept.lastChange := by
  have fits : max 1 Feed.unclosed.config.eventBufferSize.toNat ≤ Session.longestQueue := by decide
  have asked : (watchingSample .unclosed).follow? (.proceed 16000) =
      some (searchingSample .unclosed, some { changedSince := some (.onFirstDay 6) }) := rfl
  have latest : (SearchResponse.mk [.sample 1 0 20]).latestChange? = some ⟨.onFirstDay 20⟩ := rfl
  have heard := follow?_answer (answer_accepted (i := searchingSample .unclosed) rfl 16000 .epoch
    rfl rfl latest (by decide) (WatchPlan.batch_of_pairwise (by decide)))
  have run : (opened .unclosed .empty {} 0 false).run? _ = some _ :=
    (watchingSample_reached fits _).trans ((run?_cons asked _).trans
      ((run?_cons heard [.proceed 16000, .proceed 16000, .move 16000 .epoch]).trans rfl))
  have kept := (superseded_only_by_hidden run List.mem_cons_self List.mem_cons_self rfl rfl
    (by decide) List.mem_cons_self (by decide)).1 rfl
  obtain ⟨kept, found, newer⟩ := kept
  exact ⟨_, _, kept, run, List.mem_cons_self, found, newer⟩

/-- A newer version that is hidden leaves the older one in the store. -/
theorem hidden_version_leaves_copy :
    ∃ i s p, (opened .unclosed .empty {} 0 false).run?
        [.move 0 .epoch, .answer 0 .epoch (.ok ⟨[.sample 1 0 5]⟩), .proceed 16000,
          .answer 16000 .epoch (.ok ⟨[.closedSample 1 0 20]⟩), .proceed 16000] = some i ∧
      s ∈ i.sessions ∧ s.polls = [p] ∧ p.outcome = some .ok ∧ p.events = [] ∧
      p.answer = some (.ok ⟨[.closedSample 1 0 20]⟩) ∧ p.cutoff.time = .onFirstDay 6 ∧
      i.store.get? (Bug.nameOf 1) = some (.ofInfo (.sample 1 0 5)) := by
  have fits : max 1 Feed.unclosed.config.eventBufferSize.toNat ≤ Session.longestQueue := by decide
  have asked : (watchingSample .unclosed).follow? (.proceed 16000) =
      some (searchingSample .unclosed, some { changedSince := some (.onFirstDay 6) }) := rfl
  have latest : (SearchResponse.mk [.closedSample 1 0 20]).latestChange? =
      some ⟨.onFirstDay 20⟩ := rfl
  have heard := follow?_answer (answer_accepted (i := searchingSample .unclosed) rfl 16000 .epoch
    rfl rfl latest (by decide) (WatchPlan.batch_of_pairwise (by decide)))
  have run : (opened .unclosed .empty {} 0 false).run? _ = some _ :=
    (watchingSample_reached fits _).trans ((run?_cons asked _).trans
      ((run?_cons heard [.proceed 16000]).trans rfl))
  exact ⟨_, _, _, run, List.mem_cons_self, rfl, rfl, rfl, rfl, rfl, rfl⟩

end Informer

end BugFeed
