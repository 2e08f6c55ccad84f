import BugFeed.Proofs.Informer.Opening
import BugFeed.Proofs.Watch.Ending

/-!
# The next search

A watch that reached the end of its lifetime is followed by another one from the version that the
informer has come to. That one may be stopped in its turn before it has searched, and so may the
one after it. None of them can fail, since a watch fails only when a search does, and so none leads
to a list (`Session.Unsearched.take`). So the next search of the informer is the first search of a
watch from the version with which the first one ended (`Awaits.nextSearch`, `awaits_of_expired`).
-/

namespace BugFeed

set_option autoImplicit false

/-! ## Sessions before their first search -/

/-- A session that has not begun a search and has not been told of a fault. -/
structure Session.Unsearched (plan : WatchPlan) (s : Session) : Prop where
  lawful : s.Lawful
  planned : s.plan = plan
  cutoffs : s.cutoffs = []
  faults : s.faults = []

namespace Session

variable {plan : WatchPlan} {s t : Session} {now : Nat}

theorem unsearched_start (now : Nat) (present : Instant) (plan : WatchPlan) :
    (start now present plan).Unsearched plan :=
  ⟨lawful_start now present plan, rfl, rfl, rfl⟩

/-- A session that searches has begun a search. -/
theorem Told.not_searching (told : s.Told) (cutoffs : s.cutoffs = []) : s.phase ≠ .searching := by
  intro phase
  rw [Told, phase] at told
  obtain ⟨earlier, polls, _⟩ := told
  rw [Session.cutoffs, polls] at cutoffs
  simp at cutoffs

/-- An answer finds no search to which it belongs. -/
theorem Told.unasked (told : s.Told) (cutoffs : s.cutoffs = [])
    {response : Except TransportFault SearchResponse} (hears : Hears s now response t) : t = s := by
  have phase := told.not_searching cutoffs
  cases hears with
  | unasked => rfl
  | late searching | picked searching => exact absurd searching phase

namespace Unsearched

variable (unsearched : s.Unsearched plan)

include unsearched

/-- A session that has not searched yet stays so, or begins its first search. -/
theorem move {args : Option SearchArgs} (move : Move s now t args) :
    args = none ∧ t.Unsearched plan ∨ args = some (plan.searchSince plan.start) := by
  have lawful := unsearched.lawful.move move
  have planned : t.plan = plan := move.plan.trans unsearched.planned
  have cutoffs := move.traffic.cutoffs
  rw [unsearched.cutoffs, unsearched.planned, List.map_nil, List.nil_append] at cutoffs
  cases args with
  | none =>
      refine .inl ⟨rfl, lawful, planned, List.map_eq_nil_iff.mp cutoffs, ?_⟩
      exact move.faults.trans unsearched.faults
  | some search =>
      obtain ⟨cutoff, asked, rfl⟩ := List.map_eq_singleton_iff.mp cutoffs
      have first : cutoff = t.plan.start := lawful.told.first_cutoff cutoff (by rw [asked]; rfl)
      exact .inr (by rw [first, planned])

/-- The only event that such a session hands over tells of the end of its lifetime. -/
theorem take {event : WatchEvent} (taken : s.take? now = some (event, t)) :
    t.Unsearched plan ∧ ∃ status, event = .error status ∧ status.reason = .expired := by
  obtain ⟨queue, same⟩ := queue_of_take taken
  have lawful := unsearched.lawful
  have polls : s.polls = [] := by simpa [Session.cutoffs] using unsearched.cutoffs
  have changes : s.changes = [] := by rw [Session.changes, polls]; rfl
  -- No poll has handed anything over, so the event is the fault with which the session ended.
  obtain ⟨fault, delivered, _⟩ := lawful.passes.told
  have handed : event ∈ s.delivered := by
    refine lawful.passes.inOrder.subset (List.mem_append_right _ ?_)
    rw [queue]
    exact List.mem_cons_self
  rw [delivered, changes, List.nil_append] at handed
  obtain ⟨status, _, rfl⟩ := List.mem_map.mp handed
  have reported : status ∈ s.reports := by
    rw [reports, delivered, changes, List.nil_append]
    exact List.mem_filterMap.mpr ⟨_, handed, rfl⟩
  refine ⟨⟨lawful.take taken, ?_, ?_, ?_⟩, status, rfl, ?_⟩
  · rw [same]
    exact unsearched.planned
  · exact (cutoffs_of_take taken).trans unsearched.cutoffs
  · rw [same, faults_note]
    exact (List.append_nil _).trans unsearched.faults
  · rcases lawful.accounts.owed?_eq_some_iff.mp (lawful.owed_of_mem_reports reported).2 with
      ⟨fault, heard, _⟩ | ⟨_, _, expired⟩
    · rw [unsearched.faults] at heard
      cases heard
    · rw [expired]
      rfl

/-- A session that moves and has still not searched began no search. -/
theorem move_of_cutoffs {args : Option SearchArgs} (move : Move s now t args)
    (cutoffs : t.cutoffs = []) : t.Unsearched plan := by
  rcases unsearched.move move with ⟨_, still⟩ | asks
  · exact still
  · have begun := move.traffic.cutoffs
    rw [cutoffs, asks, List.map_nil] at begun
    simp at begun

theorem stop (now : Nat) : (s.stop now).Unsearched plan where
  lawful := unsearched.lawful.stop now
  planned := (s.plan_fire now .requested).trans unsearched.planned
  cutoffs := (Quiet.fire s now .requested).cutoffs.trans unsearched.cutoffs
  faults := (faults_fire s now .requested).trans unsearched.faults

end Unsearched

end Session

namespace Informer

variable {i j k : Informer} {now : Nat} {present : Instant} {args : Option SearchArgs}

/-! ## The searches of a run -/

/-- What the cues of a run bring, first one first. -/
def along {α : Type} (f : Informer → Cue → Option α) (i : Informer) : List Cue → List α
  | [] => []
  | cue :: cues => (f i cue).toList ++ ((i.follow? cue).map fun (j, _) => j.along f cues).getD []

theorem along_cons {α : Type} {f : Informer → Cue → Option α} {cue : Cue}
    (first : i.follow? cue = some (j, args)) (cues : List Cue) :
    i.along f (cue :: cues) = (f i cue).toList ++ j.along f cues := by
  rw [along, first, Option.map_some, Option.getD_some]

/-- The searches that an informer begins in a run, for a list or in a watch, first one first. -/
def searches (i : Informer) (cues : List Cue) : List SearchArgs :=
  i.along (fun i cue => (i.follow? cue).bind Prod.snd) cues

/-! ## Waiting for the first search of a watch -/

/-- The next search that an informer begins, whatever happens until then, is this one. -/
def NextSearch (i : Informer) (search : SearchArgs) : Prop :=
  ∀ cues, ∀ next ∈ (i.searches cues).head?, next = search

/-- In this phase an informer waits for the first search of a watch, or will search no more. -/
def BeforeSearch (plan : WatchPlan) : InformerPhase → Prop
  | .watching s | .draining s => s.Unsearched plan
  | .finished _ | .broken => True
  | .idle | .resting _ | .listing _ _ _ | .retrying _ _ => False

/-- An informer that waits for the first search of a watch after the version of another one, or
will search no more. -/
structure Awaits (k i : Informer) : Prop where
  feed : i.feed = k.feed
  labels : i.labels = k.labels
  version : i.version = k.version
  before : BeforeSearch (k.feed.planFrom k.watchOptions k.version) i.phase

/-- The first search of a watch after the version of an informer. -/
def firstSearch (k : Informer) : SearchArgs :=
  { k.feed.argsFor k.watchOptions with
    changedSince := some (Feed.startAfter k.version.truncate).time }

namespace Awaits

theorem openWatch (feed : i.feed = k.feed) (labels : i.labels = k.labels)
    (version : i.version = k.version) (now : Nat) (present : Instant) :
    Awaits k (i.openWatch now present) := by
  have plan : i.feed.planFrom i.watchOptions i.version =
      k.feed.planFrom k.watchOptions k.version := by
    rw [watchOptions, watchOptions, feed, version, labels]
  rcases i.openWatch_outcomes now present with ⟨_, opened | broken⟩ | ⟨_, finished⟩
  · rw [opened, plan]
    exact ⟨feed, labels, version, Session.unsearched_start now present _⟩
  · rw [broken]
    exact ⟨feed, labels, version, trivial⟩
  · rw [finished]
    exact ⟨feed, labels, version, trivial⟩

theorem rewatch (feed : i.feed = k.feed) (labels : i.labels = k.labels)
    (version : i.version = k.version) (now : Nat) (present : Instant) :
    Awaits k (i.rewatch now present) := by
  unfold Informer.rewatch
  -- As a variable the informer that opens the watch is not unfolded with it.
  generalize left : Informer.count _ _ = j
  refine openWatch ?_ ?_ ?_ now present
  · rw [← left]
    exact feed
  · rw [← left]
    exact labels
  · rw [← left]
    exact version

variable (awaits : Awaits k i)

include awaits

theorem before_of {phase : InformerPhase} (same : i.phase = phase) :
    BeforeSearch (k.feed.planFrom k.watchOptions k.version) phase := same ▸ awaits.before

theorem enters {phase : InformerPhase}
    (before : BeforeSearch (k.feed.planFrom k.watchOptions k.version) phase) :
    Awaits k { i with phase := phase } :=
  ⟨awaits.feed, awaits.labels, awaits.version, before⟩

/-- All that the informer does by itself leaves it waiting, or begins the search. -/
theorem act (act : Act i now present j args) :
    args = none ∧ Awaits k j ∨ args = some k.firstSearch := by
  have rewatches : ∀ {i' : Informer}, i'.feed = i.feed → i'.labels = i.labels →
      i'.version = i.version → Awaits k (i'.rewatch now present) := by
    intro i' feed labels version
    exact rewatch (feed.trans awaits.feed) (labels.trans awaits.labels)
      (version.trans awaits.version) now present
  cases act with
  | list phase | timeOut phase | retry phase => exact (awaits.before_of phase).elim
  | giveUp => exact .inl ⟨rfl, awaits.feed, awaits.labels, awaits.version, trivial⟩
  | @take s t event phase taken =>
      have unsearched : s.Unsearched _ := awaits.before_of phase
      obtain ⟨_, status, rfl, expired⟩ := unsearched.take taken
      have resumable : status.isResumable = true := decide_eq_true expired
      have rewatched : ({ i with phase := .watching t } : Informer).consume now present
          (.error status) = (Informer.note { i with phase := .watching t } now
            (.closed (some status))).rewatch now present := if_pos resumable
      rw [rewatched]
      exact .inl ⟨rfl, rewatches rfl rfl rfl⟩
  | closed => exact .inl ⟨rfl, rewatches rfl rfl rfl⟩
  | @watch s t args phase move =>
      have unsearched : s.Unsearched _ := awaits.before_of phase
      rcases unsearched.move move with ⟨none, still⟩ | asks
      · exact .inl ⟨none, awaits.enters still⟩
      · exact .inr asks
  | @stop s phase =>
      have unsearched : s.Unsearched _ := awaits.before_of phase
      exact .inl ⟨rfl, awaits.enters (unsearched.stop now)⟩
  | @discard s t event phase taken =>
      have unsearched : s.Unsearched _ := awaits.before_of phase
      have still : Awaits k { i with phase := .draining t } :=
        awaits.enters (unsearched.take taken).1
      exact .inl ⟨rfl, still.feed, still.labels, still.version, still.before⟩
  | drained => exact .inl ⟨rfl, awaits.feed, awaits.labels, awaits.version, trivial⟩
  | @drain s t args phase move =>
      have unsearched : s.Unsearched _ := awaits.before_of phase
      rcases unsearched.move move with ⟨none, still⟩ | asks
      · exact .inl ⟨none, awaits.enters still⟩
      · exact .inr asks

/-- No answer belongs to a search that has not begun. -/
theorem heard {response : Except TransportFault SearchResponse}
    (heard : Heard i now present response j) : Awaits k j := by
  cases heard with
  | ignored => exact awaits
  | list phase | failed phase => exact (awaits.before_of phase).elim
  | @watch s t response phase hears | @drain s t response phase hears =>
      have unsearched : s.Unsearched _ := awaits.before_of phase
      rw [unsearched.lawful.told.unasked unsearched.cutoffs hears]
      exact awaits.enters unsearched

theorem follow {cue : Cue} (h : i.follow? cue = some (j, args)) :
    args = none ∧ Awaits k j ∨ args = some k.firstSearch := by
  rcases act_of_follow h with
    ⟨now, present, act⟩ | ⟨_, none, rfl⟩ | ⟨now, present, response, _, none, rfl⟩
  · exact awaits.act act
  · exact .inl ⟨none, awaits.feed, awaits.labels, awaits.version, awaits.before⟩
  · exact .inl ⟨none, awaits.heard (heard_answer i now present response)⟩

/-- **The next search of an informer that waits for one is the first search of its watch.** -/
theorem nextSearch : i.NextSearch k.firstSearch := by
  intro cues
  induction cues generalizing i with
  | nil =>
      intro next first
      cases first
  | cons cue cues ih =>
      intro next first
      cases begun : i.follow? cue with
      | none => simp [searches, along, begun] at first
      | some after =>
          obtain ⟨j, args⟩ := after
          rw [searches, along_cons begun, begun, Option.bind_some] at first
          rcases awaits.follow begun with ⟨rfl, later⟩ | rfl
          · exact ih later next first
          · cases first
            rfl

end Awaits

/-- An informer whose watch reached the end of its lifetime waits for the first search of the next
one as soon as it is told. -/
theorem awaits_of_expired {s t : Session} {status : Status} (phase : i.phase = .watching s)
    (running : i.stopping = false) (taken : s.take? now = some (.error status, t))
    (expired : status.reason = .expired) (h : i.follow? (.move now present) = some (j, args)) :
    args = none ∧ Awaits i j := by
  have resumable : status.isResumable = true := decide_eq_true expired
  have moves : i.follow? (.move now present) =
      some ((Informer.note { i with phase := .watching t } now
        (.closed (some status))).rewatch now present, none) := by
    simp only [follow?, move?, running, proceed?, phase, taken, consume, resumable, if_true]
    rfl
  rw [moves] at h
  cases h
  refine ⟨rfl, Awaits.rewatch ?_ ?_ ?_ now present⟩ <;> rfl

end Informer

end BugFeed
