import BugFeed.Proofs.Informer.Opening
import BugFeed.Proofs.Watch.NextVisible
import BugFeed.Proofs.Watch.Order

/-!
# From a list to the watch after it

A list has the latest change of its whole answer as its version, shown bugs and hidden ones alike,
and the anchor if the answer is empty. The version goes through its token, which keeps its second
and nothing more, and the watch starts at the beginning of the next second.

So the two meet without an overlap and without a gap (`neither_overlap_nor_gap`). Every bug of the
answer changed before the first cutoff, and no event of the session is about a change before that.
Every instant of a later second is at the cutoff or after it, unless it lies in a leap second: the
beginning of a leap second is before the full minute that the watch starts at
(`DateTime.le_of_later_second`).
-/

namespace BugFeed

set_option autoImplicit false

/-! ## Lists and the watches after them -/

/-- The version that a list is made at: the latest change of the answer, or the anchor if the answer
is empty. -/
def SearchResponse.reflects (found : SearchResponse) (anchor : ResourceVersion) : ResourceVersion :=
  found.latestChange?.getD anchor

/-- No bug of an answer, shown or hidden, changed after the version of its list. -/
theorem SearchResponse.le_reflects {found : SearchResponse} (anchor : ResourceVersion) {f : BugInfo}
    (member : f ∈ found.bugs) : f.lastChange ≤ (found.reflects anchor).time := by
  rw [reflects]
  cases latest : found.latestChange? with
  | none =>
      rw [latestChange?_eq_none_iff.mp latest] at member
      cases member
  | some version => exact le_latestChange latest member

namespace Feed

variable {feed : Feed} {options : ListOptions} {now : Nat} {present : Instant}

/-- A watch after a version that can be read back does what is planned from it. -/
theorem watch_display {v : ResourceVersion} (written : v.Written)
    (resumed : options.version = some v.display) :
    feed.watch options now present =
      if max 1 feed.config.eventBufferSize.toNat ≤ Session.longestQueue then
        .ok (.start now present (feed.planFrom options v))
      else .error .queueTooLong := by
  rw [watch, Informer.plan_display written resumed]
  rfl

/-- **A list and the watch after it have neither an overlap nor a gap.** Let `m` be the latest
change of an answer, or the anchor if the answer is empty, in a year of four digits. The token of
the list opens a watch, whatever bugs are shown, and the first cutoff `c` of its session is the
beginning of the second after that of `m`. Every bug of the answer, shown or hidden, changed before
`c`. Whatever is answered later, no event is about a change before `c`, so none is about a bug as
the answer has it. Every instant of a later second than that of `m` is at `c` or after it, unless
it lies in a leap second. -/
theorem neither_overlap_nor_gap {anchor : ResourceVersion} {found : SearchResponse}
    {list : BugList} (listed : feed.listOf anchor (.ok found) = .ok list)
    (resumed : options.version = some list.version) (written : (found.reflects anchor).Written)
    (now : Nat) (present : Instant) :
    ∃ c : ResourceVersion, (found.reflects anchor).truncate.nextVisible? = some c ∧
      (∀ f ∈ found.bugs, f.lastChange < c.time) ∧
      (∀ u : Instant, u.inLeapSecond = false →
        (found.reflects anchor).time.truncate < u.truncate → c.time ≤ u) ∧
      (∀ fault, feed.watch options now present ≠ .error (.token fault)) ∧
      ∀ opened, feed.watch options now present = .ok opened →
        opened.plan.start = c ∧ ∀ cues s, opened.run? cues = some s →
          (∀ first ∈ s.cutoffs.head?, first = c) ∧
          (∀ search ∈ (opened.searches cues).head?,
            search = { feed.argsFor options with changedSince := some c.time }) ∧
          (∀ b ∈ s.reported, c.time ≤ b.lastChange) ∧
          ∀ f ∈ found.bugs, .ofInfo f ∉ s.reported := by
  generalize version : found.reflects anchor = m at written
  have display : options.version = some m.display := by
    cases listed
    rw [resumed, ← version]
    rfl
  obtain ⟨next, whole⟩ := startAfter_spec written
  have before : ∀ f ∈ found.bugs, f.lastChange < (startAfter m.truncate).time := by
    intro f member
    have upTo := SearchResponse.le_reflects anchor member
    rw [version] at upTo
    exact DateTime.lt_of_next_second next upTo
  have watched : feed.watch options now present = _ := watch_display written display
  refine ⟨startAfter m.truncate, ?_, before, ?_, ?_, ?_⟩
  · exact nextVisible?_truncate written
  · intro u ordinary later
    exact DateTime.le_of_later_second next whole ordinary later
  · intro fault refused
    rw [watched] at refused
    split at refused <;> cases refused
  · intro opened accepted
    rw [watched] at accepted
    split at accepted <;> cases accepted
    refine ⟨rfl, ?_⟩
    intro cues s run
    have told := Session.told_of_run run
    have kept := Session.plan_of_run run
    have first := told.first_cutoff
    have reported : ∀ b ∈ s.reported, (startAfter m.truncate).time ≤ b.lastChange := by
      intro b member
      have late := told.start_le_of_reported (Session.passes_of_run run) member
      rw [kept] at late
      exact late
    rw [kept] at first
    refine ⟨first, ?_, reported, ?_⟩
    · intro search begun
      have searched := Session.searches_of_run run
      rw [← searched.trans (List.nil_append _), List.head?_map] at begun
      obtain ⟨cutoff, head, rfl⟩ := Option.map_eq_some_iff.mp begun
      rw [kept, first cutoff head]
      rfl
    · intro f member shown
      exact absurd (reported _ shown) (not_le.mpr (before f member))

/-- An answer in which a hidden bug has the latest change. -/
def hiddenLast : SearchResponse := ⟨[.sample 1 0 5, .closedSample 2 0 7]⟩

/-- The options of a watch after the list that is made of it. -/
def afterHiddenLast : ListOptions :=
  { version := some (BugList.ofResponse hiddenLast unclosed.includes ⟨.epoch⟩).version }

/-- The watch after such a list starts at the second after the hidden change, and hands over neither
of the two bugs when it is told of them again. -/
theorem unchanged_bugs_not_handed_over :
    ∃ opened s, unclosed.watch afterHiddenLast 0 .epoch = .ok opened ∧
      opened.run? [.proceed 18000, .answer 18000
        (.ok ⟨[.sample 1 0 5, .closedSample 2 0 7, .sample 3 8 9]⟩), .proceed 18000] = some s ∧
      s.cutoffs = [⟨.onFirstDay 8⟩] ∧ s.reported = [.ofInfo (.sample 3 8 9)] ∧
      (∀ first ∈ s.cutoffs.head?, first = ⟨.onFirstDay 8⟩) ∧
      ∀ f ∈ hiddenLast.bugs, .ofInfo f ∉ s.reported := by
  have written : (hiddenLast.reflects ⟨.epoch⟩).Written := by decide
  have watched : unclosed.watch afterHiddenLast 0 .epoch =
      .ok (.start 0 .epoch (unclosed.planFrom afterHiddenLast ⟨.onFirstDay 7⟩)) :=
    watch_display written rfl
  have batch : (unclosed.planFrom afterHiddenLast ⟨.onFirstDay 7⟩).batch ⟨.onFirstDay 8⟩
      ⟨[.sample 1 0 5, .closedSample 2 0 7, .sample 3 8 9]⟩ = [.ofInfo (.sample 3 8 9)] :=
    WatchPlan.batch_of_pairwise (by decide)
  have latest : (SearchResponse.mk
      [.sample 1 0 5, .closedSample 2 0 7, .sample 3 8 9]).latestChange? =
      some ⟨.onFirstDay 9⟩ := rfl
  have searching : (Session.start 0 .epoch
      (unclosed.planFrom afterHiddenLast ⟨.onFirstDay 7⟩)).follow? (.proceed 18000) = some _ :=
    Session.follow?_firstSearch (by decide)
  have run := (Session.run?_accepted (Session.run?_cons searching []) 18000 rfl rfl latest
    (by decide) batch [.proceed 18000]).trans rfl
  have listed : unclosed.listOf ⟨.epoch⟩ (.ok hiddenLast) =
      .ok (.ofResponse hiddenLast unclosed.includes ⟨.epoch⟩) := rfl
  have resumed : afterHiddenLast.version =
      some (BugList.ofResponse hiddenLast unclosed.includes ⟨.epoch⟩).version := rfl
  obtain ⟨c, visible, _, _, _, sessions⟩ :=
    neither_overlap_nor_gap listed resumed written 0 .epoch
  have cutoff : c = ⟨.onFirstDay 8⟩ := Option.some.inj (visible.symm.trans rfl)
  obtain ⟨first, _, _, unseen⟩ := (sessions _ watched).2 _ _ run
  exact ⟨_, _, watched, run, rfl, rfl, cutoff ▸ first, unseen⟩

end Feed

end BugFeed
