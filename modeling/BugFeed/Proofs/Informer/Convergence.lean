import BugFeed.Proofs.Informer.Mirror

/-!
# The store converges to the server

In every run of a world, with the server changing its records at any moment, watches that expire
or fail at any point, polls that are skipped and lists that are tried again, the informer mirrors
the server (`Mirrors`, `tracks_of_run`): its copies are all told versions of bugs, and while it
watches, its session follows the server.

So a record that the store does not hold is on its way to it, or lies at the next cutoff or
beyond. Once the server is quiet and a poll that began since has ended, the store holds exactly the
server's records (`converges`). The exception is a change at the very start of a session that has
not accepted an answer: polls that find nothing newer skip it
(`change_at_watch_start_missed`).
-/

namespace BugFeed

set_option autoImplicit false

variable {config : WatchConfig} {v v' : Server} {settled settled' : Prop}
  {request request' : Option Request} {i j : Informer} {now : Nat} {present : Instant}

/-! ## Mirrors of a server -/

namespace Informer

/-- Whether a log tells last of a list and of the watch that was opened from it. -/
def listedLast : List (Nat × InformerNote) → Bool
  | (_, .opened _) :: (_, .listed _) :: _ => true
  | _ => false

/-- Whether the informer has taken nothing over since its list, and its watch is the first one
since. -/
def JustListed (i : Informer) : Prop := listedLast i.log = true

/-- In this phase an informer neither waits for a list nor watches. -/
def Aloof : InformerPhase → Prop
  | .listing _ _ _ | .watching _ => False
  | .idle | .resting _ | .retrying _ _ | .draining _ | .finished _ | .broken => True

/-- An informer that shows all bugs and mirrors a server: its copies are told, a search for the
list has no cutoff and is anchored at its beginning, and the session of its watch follows the
server. -/
structure Mirrors (config : WatchConfig) (v : Server) (settled : Prop) (request : Option Request)
    (i : Informer) : Prop where
  feed : i.feed = { config := config }
  ordinary : i.version.time.Ordinary
  copies : Copies v i.store
  listing : ∀ {retry : Retry} {deadline : Nat} {anchor : ResourceVersion},
    i.phase = .listing retry deadline anchor → ∀ asked, request = some asked →
      asked.args.changedSince = none ∧ anchor = ⟨asked.began⟩
  follows : ∀ {s : Session}, i.phase = .watching s →
    s.Follows v settled i.JustListed request i.store i.version

namespace Mirrors

theorem opened (labels : Catalog String) (policy : BackoffPolicy) (stopping : Bool) :
    (opened { config := config } labels policy now stopping).Mirrors config v settled request where
  feed := rfl
  ordinary := World.ordinary_epoch
  copies name b found := by cases found
  listing phase := by cases phase
  follows phase := by cases phase

theorem grows (mirrors : i.Mirrors config v settled request) (grows : v.Grows v')
    (quiet : settled' → settled ∧ ∀ r ∈ v'.records, r ∈ v.records)
    (asked : ∀ q, request' = some q →
      ∃ p, request = some p ∧ p.args = q.args ∧ p.began = q.began) :
    i.Mirrors config v' settled' request' where
  feed := mirrors.feed
  ordinary := mirrors.ordinary
  copies := mirrors.copies.grows grows
  listing phase q hq := by
    obtain ⟨p, hp, args, began⟩ := asked q hq
    rw [← args, ← began]
    exact mirrors.listing phase p hp
  follows phase := by
    refine (mirrors.follows phase).grows grows quiet id ?_
    intro q hq
    obtain ⟨p, hp, args, _⟩ := asked q hq
    exact ⟨p, hp, args⟩

/-- The answer, once heard, is no longer of concern to an informer. -/
theorem forget (mirrors : i.Mirrors config v settled request) :
    i.Mirrors config v settled none :=
  mirrors.grows (.refl v) (fun still => ⟨still, fun _ member => member⟩) fun q hq => by cases hq

/-- Whatever an informer does that neither lists nor watches, it mirrors the server if its copies
stay the same. -/
theorem apart (mirrors : i.Mirrors config v settled request) (feed : j.feed = i.feed)
    (version : j.version = i.version) (store : j.store = i.store) (aloof : Aloof j.phase) :
    j.Mirrors config v settled' request' where
  feed := feed.trans mirrors.feed
  ordinary := version ▸ mirrors.ordinary
  copies := store ▸ mirrors.copies
  listing phase := by
    rw [phase] at aloof
    exact aloof.elim
  follows phase := by
    rw [phase] at aloof
    exact aloof.elim

/-- An informer whose session follows the server mirrors it. -/
theorem watching {s : Session} (mirrors : i.Mirrors config v settled request)
    (feed : j.feed = i.feed) (version : j.version = i.version) (store : j.store = i.store)
    (phase : j.phase = .watching s)
    (follows : s.Follows v settled' j.JustListed request' i.store i.version) :
    j.Mirrors config v settled' request' where
  feed := feed.trans mirrors.feed
  ordinary := version ▸ mirrors.ordinary
  copies := store ▸ mirrors.copies
  listing other := by
    rw [phase] at other
    cases other
  follows same := by
    rw [phase] at same
    cases same
    rw [version, store]
    exact follows

theorem finish (mirrors : i.Mirrors config v settled request) (now : Nat)
    (outcome : Except Fault Unit) : (i.finish now outcome).Mirrors config v settled' request' :=
  mirrors.apart rfl rfl rfl trivial

theorem draining (mirrors : i.Mirrors config v settled request) (s : Session) :
    ({ i with phase := .draining s }).Mirrors config v settled' request' :=
  mirrors.apart rfl rfl rfl trivial

theorem attemptFailed (mirrors : i.Mirrors config v settled request) (now : Nat) (retry : Retry)
    (fault : Fault) : (i.attemptFailed now retry fault).Mirrors config v settled' request' := by
  rcases i.attemptFailed_cases now retry fault with ⟨next, wake, retrying⟩ | finished
  · rw [retrying]
    exact mirrors.apart rfl rfl rfl trivial
  · rw [finished]
    exact mirrors.apart rfl rfl rfl trivial

/-- The search for the list has no cutoff. -/
theorem ask (mirrors : i.Mirrors config v settled request) (now : Nat) (present : Instant)
    (retry : Retry) :
    (i.ask now present retry).1.Mirrors config v settled'
      (some { args := i.feed.argsFor i.listOptions, began := present }) where
  feed := mirrors.feed
  ordinary := mirrors.ordinary
  copies := mirrors.copies
  listing phase asked same := by
    cases phase
    cases same
    rw [mirrors.feed]
    exact ⟨rfl, rfl⟩
  follows phase := by cases phase

/-! ## Watches and lists -/

/-- An informer that opens a watch where its store covers the server mirrors it. -/
theorem openWatch (mirrors : i.Mirrors config v settled request) (now : Nat) (present : Instant)
    (covering : Covering v i.store i.version.time.unixSeconds i.version.time.unixSeconds)
    (fresh : settled → listedLast ((now, .opened i.version) :: i.log) = true →
      ∀ r ∈ v.records, Holds i.store r) :
    (i.openWatch now present).Mirrors config v settled request := by
  rcases i.openWatch_cases now present with ⟨plan, planned, opened⟩ | ⟨fault, finished⟩ | broken
  · have written := mirrors.ordinary.2
    obtain rfl := Except.ok.inj (planned.symm.trans (plan_display written rfl))
    obtain ⟨second, whole⟩ := Feed.startAfter_spec written
    have shows : ∀ f, (i.feed.planFrom i.watchOptions i.version).includes f = true := by
      intro f
      change i.feed.includes f = true
      rw [mirrors.feed]
    rw [opened]
    exact mirrors.watching rfl rfl rfl rfl (.start covering second whole shows fresh)
  · rw [finished]
    exact mirrors.finish now _
  · rw [broken]
    exact mirrors.apart rfl rfl rfl trivial

/-- An informer whose watch is over, with its store covering the server, goes on with another one
and mirrors the server. -/
theorem rewatch (mirrors : i.Mirrors config v settled request) (now : Nat) (present : Instant)
    (covering : Covering v i.store i.version.time.unixSeconds i.version.time.unixSeconds)
    (phase : InformerPhase) (status : Option Status) :
    (({ i with phase := phase }.note now (.closed status)).rewatch now present).Mirrors config v
      settled request := by
  -- The watch that is over plays no part any more.
  have left : ({ ({ i with phase := phase }.note now (.closed status)).leave with
      phase := .idle, relists := 0 }.count (.cycled .rewatch)).Mirrors config v settled request :=
    mirrors.apart rfl rfl rfl trivial
  exact left.openWatch now present covering fun _ listed => by cases listed

/-- A list of an honest answer covers the server up to its version. -/
theorem takeOver {found : SearchResponse} {asked : Request}
    (mirrors : i.Mirrors config v settled (some asked)) (began : asked.began.Ordinary)
    (answered : asked.Answered v settled found) {retry : Retry} {deadline : Nat}
    {anchor : ResourceVersion} (phase : i.phase = .listing retry deadline anchor) (now : Nat)
    (present : Instant) :
    (i.takeOver now present (.ofResponse found i.feed.includes anchor)).Mirrors config v settled
      (some asked) := by
  obtain ⟨since, rfl⟩ := mirrors.listing phase asked rfl
  have all : ∀ f, asked.args.wants f = true := fun f => by simp only [SearchArgs.wants, since]
  have told : (found.latestChange?.getD ⟨asked.began⟩).time.Ordinary ∧
      (found.latestChange?.getD ⟨asked.began⟩).time.unixSeconds ≤ v.floor := by
    cases latest : found.latestChange? with
    | none => exact ⟨began, answered.anchored latest since⟩
    | some next => exact answered.latest_told latest
  obtain ⟨ordinary, early⟩ := told
  have shown : found.bugs.filter i.feed.includes = found.bugs := by
    rw [mirrors.feed]
    exact List.filter_eq_self.mpr fun _ _ => rfl
  have items : (BugList.ofResponse found i.feed.includes ⟨asked.began⟩).items =
      found.bugs.map Bug.ofInfo := congrArg (List.map Bug.ofInfo) shown
  have holds : ∀ r ∈ found.bugs, Holds (.replace (found.bugs.map Bug.ofInfo)) r := by
    intro r member
    refine Store.get?_replace (b := .ofInfo r) ?_ (List.mem_map_of_mem member)
    refine List.pairwise_map.mpr (answered.distinct.imp fun apart same => apart ?_)
    exact Bug.nameOf_injective same
  have copies : Copies v (.replace (found.bugs.map Bug.ofInfo)) := by
    intro name b kept
    obtain ⟨member, same⟩ := Store.mem_of_get?_replace kept
    obtain ⟨f, inside, rfl⟩ := List.mem_map.mp member
    exact ⟨f, rfl, same, answered.tells f inside⟩
  rw [takeOver_display ordinary.2 rfl, items]
  generalize hlist : BugList.ofResponse found i.feed.includes ⟨asked.began⟩ = list
  generalize found.latestChange?.getD ⟨asked.began⟩ = reached at ordinary early ⊢
  have listed : (({ i with
      store := .replace (found.bugs.map Bug.ofInfo), synced := true, version := reached.truncate,
      phase := .idle } : Informer).note now (.listed list)).Mirrors config v settled (some asked) :=
    ⟨mirrors.feed, ordinary.truncate, copies, fun idle => (by cases idle),
      fun idle => (by cases idle)⟩
  have covering : Covering v (.replace (found.bugs.map Bug.ofInfo)) reached.time.unixSeconds
      reached.time.unixSeconds := by
    refine ⟨?_, early, Int.le_refl _⟩
    intro r member le
    exact holds r (answered.complete r member (all r) (Int.le_trans le early))
  refine listed.openWatch now present covering ?_
  intro still _ r member
  exact holds r (answered.quiet still r member (all r))

/-! ## Events -/

theorem absorb {s t : Session} {event : WatchEvent} {b : Bug}
    (mirrors : i.Mirrors config v settled request) (phase : i.phase = .watching s)
    (taken : s.take? now = some (event, t)) (about : event.bug? = some b) :
    ({ i with phase := .watching t }.absorb now event b).Mirrors config v settled request := by
  have follows := mirrors.follows phase
  have reports : Reports v event := by
    refine follows.reports event ?_
    rw [(Session.queue_of_take taken).1]
    exact List.mem_cons_self
  refine ⟨mirrors.feed, ?_, mirrors.copies.apply reports, fun listing => (by cases listing), ?_⟩
  · obtain ⟨f, rfl, told⟩ := reports b about
    change (i.version.latest ⟨f.lastChange⟩).time.Ordinary
    rw [ResourceVersion.latest]
    split
    · exact told.ordinary
    · exact mirrors.ordinary
  · intro s watching
    cases watching
    exact follows.take taken about fun listed => by cases listed

theorem consume {s t : Session} {event : WatchEvent}
    (mirrors : i.Mirrors config v settled request) (phase : i.phase = .watching s)
    (taken : s.take? now = some (event, t)) :
    ({ i with phase := .watching t }.consume now present event).Mirrors config v settled
      request := by
  rcases consume_cases { i with phase := .watching t } now present event with
    ⟨b, about, absorbed⟩ | ⟨status, rfl, rewatched | rested⟩
  · rw [absorbed]
    exact mirrors.absorb phase taken about
  · rw [rewatched]
    exact mirrors.rewatch now present ((mirrors.follows phase).take_fault taken) _ _
  · rw [rested]
    exact mirrors.apart rfl rfl rfl trivial

/-! ## Answers -/

/-- **An informer that hears an honest answer goes on to mirror the server.** -/
theorem heard {asked : Request} {response : Except TransportFault SearchResponse}
    (mirrors : i.Mirrors config v settled (some asked)) (began : asked.began.Ordinary)
    (answered : ∀ found, response = .ok found → asked.Answered v settled found)
    (heard : Heard i now present response j) : j.Mirrors config v settled none := by
  cases heard with
  | ignored => exact mirrors.forget
  | list phase => exact (mirrors.takeOver began (answered _ rfl) phase now present).forget
  | failed => exact mirrors.attemptFailed now _ _
  | watch phase hears =>
      have follows := (mirrors.follows phase).hears answered hears
      exact mirrors.watching rfl rfl rfl rfl follows
  | drain => exact mirrors.draining _

/-- A session that moves without a search keeps the mirror. -/
theorem watch {s t : Session} (mirrors : i.Mirrors config v settled request) (regular : v.Regular)
    (phase : i.phase = .watching s) (move : s.Move now t none) :
    ({ i with phase := .watching t }).Mirrors config v settled request :=
  mirrors.watching rfl rfl rfl rfl ((mirrors.follows phase).move regular mirrors.copies move)

/-- A session that begins a search keeps the mirror. -/
theorem search {s t : Session} {args : SearchArgs} {began : Instant}
    (mirrors : i.Mirrors config v settled request) (phase : i.phase = .watching s)
    (move : s.Move now t (some args)) :
    ({ i with phase := .watching t }).Mirrors config v settled'
      (some { args := args, began := began }) :=
  mirrors.watching rfl rfl rfl rfl ((mirrors.follows phase).ask move)

end Mirrors

end Informer

namespace World

variable {w t : World}

/-! ## Runs of a world -/

/-- A world whose informer mirrors the server, with an honest answer under way if any. -/
structure Tracks (config : WatchConfig) (w : World) : Prop where
  regular : w.server.Regular
  answered : ∀ asked, w.request = some asked → asked.began.Ordinary ∧
    ∀ found, asked.answer = some (.ok found) → asked.Answered w.server w.Settled found
  mirrors : w.informer.Mirrors config w.server w.Settled w.request

namespace Tracks

theorem opened (labels : Catalog String) (policy : BackoffPolicy) (stopping : Bool)
    {server : Server} (regular : server.Regular) :
    (opened config labels policy now stopping server).Tracks config where
  regular := regular
  answered asked same := by cases same
  mirrors := .opened labels policy stopping

/-- What an informer does without a search leaves the rest of the world. -/
theorem acts (tracks : w.Tracks config)
    (mirrors : i.Mirrors config w.server w.Settled w.request) :
    (w.act present i none).Tracks config :=
  ⟨tracks.regular, tracks.answered, mirrors⟩

/-- A search that an informer begins takes the place of the one before. -/
theorem searches (tracks : w.Tracks config) (ordinary : present.Ordinary) {args : SearchArgs}
    (mirrors : ∀ settled, i.Mirrors config w.server settled (some ⟨args, present, none⟩)) :
    (w.act present i (some args)).Tracks config where
  regular := tracks.regular
  answered asked same := by
    cases same
    exact ⟨ordinary, fun found answer => by cases answer⟩
  mirrors := mirrors _

theorem act {args : Option SearchArgs} (tracks : w.Tracks config) (ordinary : present.Ordinary)
    (act : w.informer.Act now present i args) : (w.act present i args).Tracks config := by
  have mirrors := tracks.mirrors
  cases act with
  | list phase =>
      have began : ((w.informer.count (.cycled .list)).note now .began).Mirrors config w.server
          w.Settled w.request := by
        refine mirrors.apart rfl rfl rfl ?_
        change Informer.Aloof w.informer.phase
        rw [phase]
        trivial
      rcases w.informer.beginList_cases now present with asked | finished
      · rw [asked]
        exact tracks.searches ordinary fun _ => began.ask now present _
      · rw [finished]
        exact tracks.acts (began.finish now _)
  | timeOut => exact tracks.acts (mirrors.attemptFailed now _ _)
  | retry => exact tracks.searches ordinary fun _ => mirrors.ask now present _
  | giveUp => exact tracks.acts (mirrors.finish now _)
  | take phase taken => exact tracks.acts (mirrors.consume phase taken)
  | closed phase empty closed =>
      exact tracks.acts (mirrors.rewatch now present ((mirrors.follows phase).closed empty closed)
        w.informer.phase none)
  | @watch s t args phase move =>
      cases args with
      | none => exact tracks.acts (mirrors.watch tracks.regular phase move)
      | some args => exact tracks.searches ordinary fun _ => mirrors.search phase move
  | stop => exact tracks.acts (mirrors.draining _)
  | discard =>
      exact tracks.acts
        (mirrors.apart rfl rfl rfl trivial)
  | drained =>
      exact tracks.acts
        (mirrors.apart rfl rfl rfl trivial)
  | @drain s t args phase move =>
      cases args with
      | none => exact tracks.acts (mirrors.draining _)
      | some args => exact tracks.searches ordinary fun _ => mirrors.draining _

/-- **Whatever happens in a world, its informer goes on to mirror the server.** -/
theorem step (tracks : w.Tracks config) (step : w.Step t) : t.Tracks config := by
  cases step with
  | act ordinary act => exact tracks.act ordinary act
  | shutDown =>
      have mirrors := tracks.mirrors
      exact ⟨tracks.regular, tracks.answered, mirrors.feed, mirrors.ordinary, mirrors.copies,
        fun phase => mirrors.listing phase, fun phase => mirrors.follows phase⟩
  | @reply request response asked honest =>
      obtain ⟨began, _⟩ := tracks.answered request asked
      refine ⟨tracks.regular.tellOf _, ?_, ?_⟩
      · intro q hq
        cases hq
        refine ⟨began, ?_⟩
        intro found answer
        cases answer
        exact Request.answered_of_honest tracks.regular w.Settled
          { request with answer := some (.ok found) } honest
      · refine tracks.mirrors.grows (w.server.grows_tellOf _) ?_ ?_
        · intro still
          refine ⟨still, ?_⟩
          intro r member
          rwa [w.server.tellOf_records] at member
        · intro q hq
          cases hq
          exact ⟨request, asked, rfl, rfl⟩
  | @hear request response now present asked answered =>
      obtain ⟨began, honest⟩ := tracks.answered request asked
      have mirrors := tracks.mirrors
      rw [asked] at mirrors
      refine ⟨tracks.regular, fun q hq => (by cases hq), ?_⟩
      refine mirrors.heard began ?_ (w.informer.heard_answer now present response)
      intro found same
      subst same
      exact honest found answered
  | @change record ordinary later =>
      have grows := Server.grows_change later
      have never : ¬ ({ w with
          server := w.server.change record, changed := w.searches } : World).Settled :=
        Nat.lt_irrefl _
      refine ⟨tracks.regular.change ordinary, ?_, ?_⟩
      · intro q hq
        obtain ⟨began, answered⟩ := tracks.answered q hq
        refine ⟨began, ?_⟩
        intro found answer
        exact (answered found answer).grows grows rfl fun still => absurd still never
      · exact tracks.mirrors.grows grows (fun still => absurd still never)
          fun q hq => ⟨q, hq, rfl, rfl⟩

theorem run {cues : List Cue} (run : w.run? cues = some t) (tracks : w.Tracks config) :
    t.Tracks config :=
  run?_preserves (fun h tracks => tracks.step (step_of_follow h)) run tracks

end Tracks

/-! ## Convergence -/

/-- **The store converges to the server.** In every run of a world, the store keeps of every bug
its present record or a version of an earlier second, and nothing else. While the informer watches,
every record is in the store, or on its way to it, or lies at the next cutoff or beyond. Once the
server is quiet and a poll that began since has ended, or the list, with all its events taken over,
every record is in the store, unless it changed at the very start of a session that has accepted no
answer. In particular the store holds exactly the records once the session has accepted one. -/
theorem converges {labels : Catalog String} {policy : BackoffPolicy} {stopping : Bool}
    {server : Server} {cues : List Cue} (regular : server.Regular)
    (run : (opened config labels policy now stopping server).run? cues = some w) :
    (∀ name b, w.informer.store.get? name = some b → ∃ r ∈ w.server.records,
      name = Bug.nameOf r.id ∧ (b = .ofInfo r ∨ b.lastChange.unixSeconds < r.second)) ∧
    ∀ s, w.informer.phase = .watching s →
      (∀ r ∈ w.server.records, Holds w.informer.store r ∨ s.OnTheWay (.ofInfo r) ∨
        s.nextCutoff w.informer.version ≤ r.second) ∧
      (w.Settled → (∃ wake, s.phase = .pausing wake) → s.queue = [] →
        s.polls ≠ [] ∨ w.informer.JustListed →
          (∀ r ∈ w.server.records, Holds w.informer.store r ∨
            (s.watermark = s.plan.start ∧ r.lastChange = s.plan.start.time)) ∧
          (s.watermark ≠ s.plan.start → ∀ name b, w.informer.store.get? name = some b ↔
            ∃ r ∈ w.server.records, name = Bug.nameOf r.id ∧ b = .ofInfo r)) := by
  have tracks := (Tracks.opened labels policy stopping regular).run run
  have copies := tracks.mirrors.copies
  refine ⟨fun name b found => copies.current tracks.regular found, ?_⟩
  intro s watching
  have follows := tracks.mirrors.follows watching
  refine ⟨fun r member => follows.held_or_beyond member, ?_⟩
  rintro quiet ⟨wake, phase⟩ empty polled
  have held := fun r (member : r ∈ w.server.records) =>
    follows.held_or_missed phase empty quiet polled member
  refine ⟨held, ?_⟩
  intro moved name b
  constructor
  · intro found
    obtain ⟨r, member, rfl, _⟩ := copies.current tracks.regular found
    have holds := (held r member).resolve_right fun missed => moved missed.1
    exact ⟨r, member, rfl, Option.some.inj (found.symm.trans holds)⟩
  · rintro ⟨r, member, rfl, rfl⟩
    exact (held r member).resolve_right fun missed => moved missed.1

/-! ## A change after a list -/

/-- A world whose informer has just begun to list one bug. -/
def listingSample : World where
  informer := .listingSample {}
  server := ⟨[.sample 1 0 5], 0⟩
  request := some { args := {}, began := .epoch }
  searches := 1

/-- A world whose informer has just listed one bug. -/
def watchingSample : World where
  informer := .watchingSample {}
  server := ⟨[.sample 1 0 5], 5⟩
  searches := 1

/-- A world whose informer has listed one bug that then changed, during the first search of its
watch. -/
def searchingSample (second : Nat) : World where
  informer := .searchingSample {}
  server := ⟨[.sample 1 0 second], 5⟩
  request := some { args := { changedSince := some (.onFirstDay 6) }, began := .epoch }
  searches := 2
  changed := 1

/-- The world is led to its first search by a list and a later change. -/
theorem searchingSample_reached (second : Nat)
    (allowed : (BugInfo.sample 1 0 second).lastChange.Ordinary ∧
      5 < (BugInfo.sample 1 0 second).second) (cues : List Cue) :
    (opened {} .empty {} 0 false ⟨[.sample 1 0 5], 0⟩).run?
        (.move 0 .epoch :: .reply (.ok ⟨[.sample 1 0 5]⟩) :: .hear 0 .epoch ::
          .change (.sample 1 0 second) :: .proceed 16000 :: cues) =
      (searchingSample second).run? cues := by
  have asked : (opened {} .empty {} 0 false ⟨[.sample 1 0 5], 0⟩).follow? (.move 0 .epoch) =
      some listingSample := rfl
  have honest : listingSample.server.Honest {} (.ok ⟨[.sample 1 0 5]⟩) := .refl _
  have listed := run?_answer (w := listingSample) rfl rfl honest 0 .epoch
    (Informer.answer_listingSample (by decide))
  have changed : watchingSample.follow? (.change (.sample 1 0 second)) =
      some { watchingSample with server := ⟨[.sample 1 0 second], 5⟩, changed := 1 } :=
    if_pos allowed
  have again : ({ watchingSample with server := ⟨[.sample 1 0 second], 5⟩, changed := 1 } :
      World).follow? (.proceed 16000) = some (searchingSample second) := rfl
  exact (run?_cons asked _).trans ((listed _).trans
    ((run?_cons changed _).trans (run?_cons again _)))

/-- A change later than the start of the watch comes into the store. -/
theorem later_change_held :
    ∃ w s, (opened {} .empty {} 0 false ⟨[.sample 1 0 5], 0⟩).run?
        [.move 0 .epoch, .reply (.ok ⟨[.sample 1 0 5]⟩), .hear 0 .epoch, .change (.sample 1 0 8),
          .proceed 16000, .reply (.ok ⟨[.sample 1 0 8]⟩), .hear 16000 .epoch, .proceed 16000,
          .move 16000 .epoch, .proceed 16000] = some w ∧
      w.informer.phase = .watching s ∧ w.server.records = [.sample 1 0 8] ∧
      ∀ name b, w.informer.store.get? name = some b ↔
        ∃ r ∈ w.server.records, name = Bug.nameOf r.id ∧ b = .ofInfo r := by
  have regular : Server.Regular ⟨[.sample 1 0 5], 0⟩ :=
    ⟨List.pairwise_singleton _ _, fun r member => by rw [List.mem_singleton.mp member]; decide⟩
  have latest : (SearchResponse.mk [.sample 1 0 8]).latestChange? = some ⟨.onFirstDay 8⟩ := rfl
  have heard := Informer.answer_accepted (i := .searchingSample {}) rfl 16000 .epoch rfl rfl
    latest (by decide) (WatchPlan.batch_of_pairwise (by decide))
  have honest : (searchingSample 8).server.Honest { changedSince := some (.onFirstDay 6) }
      (.ok ⟨[.sample 1 0 8]⟩) := .refl _
  have run : (opened {} .empty {} 0 false ⟨[.sample 1 0 5], 0⟩).run? _ = some _ :=
    (searchingSample_reached 8 (by decide) _).trans
      ((run?_answer (w := searchingSample 8) rfl rfl honest 16000 .epoch heard
        [.proceed 16000, .move 16000 .epoch, .proceed 16000]).trans rfl)
  have moved : ResourceVersion.mk (.onFirstDay 8) ≠ ⟨.onFirstDay 6⟩ := by decide
  have converged := ((converges regular run).2 _ rfl).2 (Nat.lt_succ_self 1) ⟨_, rfl⟩ rfl
    (.inl (List.cons_ne_nil _ _))
  exact ⟨_, _, run, rfl, rfl, converged.2 moved⟩

/-- A change at the very start of the watch does not come into the store: the poll that finds it
and nothing newer is skipped. -/
theorem change_at_watch_start_missed :
    ∃ w s wake, Server.Regular ⟨[.sample 1 0 5], 0⟩ ∧
      (opened {} .empty {} 0 false ⟨[.sample 1 0 5], 0⟩).run?
        [.move 0 .epoch, .reply (.ok ⟨[.sample 1 0 5]⟩), .hear 0 .epoch, .change (.sample 1 0 6),
          .proceed 16000, .reply (.ok ⟨[.sample 1 0 6]⟩), .hear 16000 .epoch] = some w ∧
      w.informer.phase = .watching s ∧ w.Settled ∧ s.phase = .pausing wake ∧ s.queue = [] ∧
      s.polls ≠ [] ∧ w.server.records = [.sample 1 0 6] ∧
      w.informer.store.get? (Bug.nameOf 1) = some (.ofInfo (.sample 1 0 5)) := by
  have regular : Server.Regular ⟨[.sample 1 0 5], 0⟩ :=
    ⟨List.pairwise_singleton _ _, fun r member => by rw [List.mem_singleton.mp member]; decide⟩
  have honest : (searchingSample 6).server.Honest { changedSince := some (.onFirstDay 6) }
      (.ok ⟨[.sample 1 0 6]⟩) := .refl _
  have run : (opened {} .empty {} 0 false ⟨[.sample 1 0 5], 0⟩).run? _ = some _ :=
    (searchingSample_reached 6 (by decide) _).trans
      ((run?_answer (w := searchingSample 6) rfl rfl honest 16000 .epoch rfl []).trans rfl)
  exact ⟨_, _, _, regular, run, rfl, Nat.lt_succ_self 1, rfl, rfl, List.cons_ne_nil _ _, rfl, rfl⟩

end World

end BugFeed
