import Mathlib.Data.List.Nodup
import BugFeed.Proofs.Watch.Order
import BugFeed.Proofs.Watch.Resumption

/-!
# What is handed over twice

A change is known by the id of its bug and its time. The only thing that keeps a session from
handing a change over again is that it leaves out what changed before its cutoff; a change at the
very cutoff is handed over again with whatever comes after it.

That is all that can happen if no answer repeats a change. A poll that hands anything over moves
the watermark on (`History.moves`), so two polls that hand the same change over have it at the
watermark of the first and the cutoff of the second, and no poll between them moves the watermark.
Before the watermark has reached the time of a change it was not handed over, at the watermark at
most once and after it at most twice (`Polled.copies_le`).
-/

namespace BugFeed

set_option autoImplicit false

/-! ## Changes -/

/-- What a change is known by: the id of the bug and the time of the change. -/
def BugInfo.stamp (f : BugInfo) : UInt64 × Instant := (f.id, f.lastChange)

/-- An answer that repeats no change. -/
def SearchResponse.Distinct (found : SearchResponse) : Prop := (found.bugs.map BugInfo.stamp).Nodup

instance (found : SearchResponse) : Decidable found.Distinct :=
  inferInstanceAs (Decidable (List.Nodup _))

/-- The changes that a poll handed over, first one first. -/
def Poll.stamps (p : Poll) : List (UInt64 × Instant) := p.reported.map fun b => b.info.stamp

/-- The changes that a session handed over, first one first. -/
def Session.stamps (s : Session) : List (UInt64 × Instant) := s.reported.map fun b => b.info.stamp

/-- How often some polls, newest first, handed a change over. -/
def Poll.copies (polls : List Poll) (x : UInt64 × Instant) : Nat :=
  (polls.reverse.flatMap Poll.stamps).count x

namespace Poll

theorem handed_eq_map_reported (p : Poll) : p.handed = p.reported.map Bug.info :=
  (List.map_filterMap ..).symm

theorem copies_cons (p : Poll) (polls : List Poll) (x : UInt64 × Instant) :
    copies (p :: polls) x = copies polls x + p.stamps.count x := by
  rw [copies, copies, List.reverse_cons, List.flatMap_append, List.flatMap_singleton,
    List.count_append]

end Poll

/-- A batch tells its bugs apart by whatever tells those of its answer apart. -/
theorem WatchPlan.nodup_batch {β : Type} (plan : WatchPlan) (cutoff : ResourceVersion)
    {found : SearchResponse} (key : BugInfo → β) (apart : (found.bugs.map key).Nodup) :
    ((plan.batch cutoff found).map fun b => key b.info).Nodup := by
  have shown : (((found.bugs.filter plan.includes).map Bug.ofInfo).map
      fun b => key b.info).Nodup := by
    rw [List.map_map]
    exact apart.sublist (List.filter_sublist.map key)
  have sorted := (((List.mergeSort_perm _ before).map fun b => key b.info).nodup_iff).mpr shown
  exact sorted.sublist (List.filter_sublist.map _)

section History

variable {plan : WatchPlan} {polls : List Poll} {p : Poll} {watermark : ResourceVersion}

/-- What a poll hands over is told apart by whatever tells the bugs of its answer apart. -/
theorem Poll.HandsOver.nodup {β : Type} {done rest : List Bug} (hands : p.HandsOver plan done rest)
    (key : BugInfo → β)
    (apart : ∀ found, p.answer = some (.ok found) → (found.bugs.map key).Nodup) :
    (p.reported.map fun b => key b.info).Nodup := by
  have whole : ((p.batch plan).map fun b => key b.info).Nodup := by
    rw [batch]
    split
    · rename_i found answered
      exact plan.nodup_batch _ key (apart found answered)
    · exact .nil
  rw [hands.split, List.map_append] at whole
  rw [hands.reported]
  exact (List.nodup_append.mp whole).1

theorem Poll.HandsOver.count_stamps_le {done rest : List Bug} (hands : p.HandsOver plan done rest)
    (distinct : ∀ found, p.answer = some (.ok found) → found.Distinct) (x : UInt64 × Instant) :
    p.stamps.count x ≤ 1 :=
  List.nodup_iff_count_le_one.mp (hands.nodup BugInfo.stamp distinct) x

/-! ## Polls that move the watermark -/

theorem ResourceVersion.lt_reach {cutoff next : ResourceVersion} {found : SearchResponse}
    (latest : found.latestChange? = some next) (fresh : next.isAfter cutoff = true) :
    cutoff.time < (cutoff.reach found).time := by
  rw [reach_of_fresh latest fresh]
  exact isAfter_iff.mp fresh

/-- A poll that ended well or handed anything over. -/
def Poll.Accepted (p : Poll) : Prop := p.outcome = some .ok ∨ p.reported ≠ []

theorem Poll.not_accepted (outcome : p.outcome ≠ some .ok) (idle : p.reported = []) :
    ¬ p.Accepted := by
  rintro (ok | told)
  · exact outcome ok
  · exact told idle

theorem Concluded.moves (concluded : Concluded plan p watermark) (accepted : p.Accepted) :
    p.cutoff.time < p.reached.time := by
  cases concluded with
  | empty => exact absurd accepted (Poll.not_accepted nofun rfl)
  | skipped => exact absurd accepted (Poll.not_accepted nofun rfl)
  | ok latest fresh => exact ResourceVersion.lt_reach latest fresh

theorem Underway.moves (underway : Underway plan p) (accepted : p.Accepted) :
    p.cutoff.time < p.reached.time := by
  cases underway with
  | unanswered => exact absurd accepted (Poll.not_accepted nofun rfl)
  | failed => exact absurd accepted (Poll.not_accepted nofun rfl)
  | handing handing => exact ResourceVersion.lt_reach handing.latest handing.fresh

/-- **An accepted poll moves the watermark on.** -/
theorem History.moves (history : History plan polls watermark) (member : p ∈ polls)
    (accepted : p.Accepted) : p.cutoff.time < p.reached.time := by
  rcases history.mem_cases member with ⟨after, concluded⟩ | underway
  · exact concluded.moves accepted
  · exact underway.moves accepted

/-- A change that a poll handed over lies between its cutoff and the later watermark that it came
to. -/
theorem History.stamp_between (history : History plan polls watermark) (member : p ∈ polls)
    {x : UInt64 × Instant} (told : x ∈ p.stamps) :
    p.cutoff.time ≤ x.2 ∧ x.2 ≤ p.reached.time ∧ p.cutoff.time < p.reached.time := by
  obtain ⟨b, reported, rfl⟩ := List.mem_map.mp told
  obtain ⟨late, early⟩ := history.between member reported
  exact ⟨late, early, history.moves member (.inr (List.ne_nil_of_mem reported))⟩

/-- A poll begins where any earlier one came to, or later. -/
theorem History.reached_le_cutoff (history : History plan polls watermark) {q : Poll} {i j : Nat}
    (earlier : i < j) (first : polls.reverse[i]? = some p) (second : polls.reverse[j]? = some q) :
    p.reached.time ≤ q.cutoff.time := by
  obtain ⟨hi, rfl⟩ := List.getElem?_eq_some_iff.mp first
  obtain ⟨hj, rfl⟩ := List.getElem?_eq_some_iff.mp second
  exact List.pairwise_iff_getElem.mp (List.pairwise_reverse.mpr history.pairwise_after)
    i j hi hj earlier

/-! ## How often a change is handed over -/

/-- How often a change at a time can have been handed over before the watermark has passed an
instant: not at all before it has reached that time, once when it has just reached it. -/
def allowance (reached time : Instant) : Nat :=
  if reached < time then 0 else if reached = time then 1 else 2

theorem allowance_of_lt {reached time : Instant} (h : reached < time) :
    allowance reached time = 0 := if_pos h

theorem allowance_self (time : Instant) : allowance time time = 1 := by
  rw [allowance, if_neg (lt_irrefl time), if_pos rfl]

theorem allowance_of_gt {reached time : Instant} (h : time < reached) :
    allowance reached time = 2 := by
  rw [allowance, if_neg (not_lt.mpr (le_of_lt h)), if_neg (ne_of_gt h)]

theorem allowance_mono {cutoff reached : Instant} (forward : cutoff ≤ reached) (time : Instant) :
    allowance cutoff time ≤ allowance reached time := by
  rcases lt_trichotomy cutoff time with early | rfl | passed
  · rw [allowance_of_lt early]
    exact Nat.zero_le _
  · rcases lt_or_eq_of_le forward with passes | rfl
    · rw [allowance_self, allowance_of_gt passes]
      exact Nat.le_succ 1
    · exact Nat.le_refl _
  · rw [allowance_of_gt passed, allowance_of_gt (lt_of_lt_of_le passed forward)]

/-- A watermark that moves over the time of a change, or from it or up to it, allows for the change
once more. -/
theorem allowance_lt {cutoff reached time : Instant} (late : cutoff ≤ time) (early : time ≤ reached)
    (moved : cutoff < reached) : allowance cutoff time < allowance reached time := by
  rcases lt_or_eq_of_le late with before | rfl
  · rw [allowance_of_lt before]
    rcases lt_or_eq_of_le early with passed | rfl
    · rw [allowance_of_gt passed]
      exact Nat.two_pos
    · rw [allowance_self]
      exact Nat.one_pos
  · rw [allowance_self, allowance_of_gt moved]
    exact Nat.lt_succ_self 1

/-- Polls of which each had an answer that repeats no change. -/
def AllDistinct (polls : List Poll) : Prop :=
  ∀ p ∈ polls, ∀ found, p.answer = some (.ok found) → found.Distinct

theorem AllDistinct.tail {earlier : List Poll} (distinct : AllDistinct (p :: earlier)) :
    AllDistinct earlier :=
  fun q member => distinct q (List.mem_cons_of_mem p member)

/-- The newest poll hands a change over once at most, and keeps within what is allowed. -/
theorem History.copies_cons_le {earlier : List Poll}
    (history : History plan (p :: earlier) watermark) (distinct : AllDistinct (p :: earlier))
    {x : UInt64 × Instant} (before : Poll.copies earlier x ≤ allowance p.cutoff.time x.2) :
    Poll.copies (p :: earlier) x ≤ allowance p.reached.time x.2 := by
  obtain ⟨done, rest, hands⟩ := history.handsOver List.mem_cons_self
  have once := hands.count_stamps_le (distinct p List.mem_cons_self) x
  rw [Poll.copies_cons]
  by_cases told : x ∈ p.stamps
  · obtain ⟨late, early, moved⟩ := history.stamp_between List.mem_cons_self told
    have more := allowance_lt late early moved
    omega
  · have kept := allowance_mono p.le_reached x.2
    rw [List.count_eq_zero_of_not_mem told]
    omega

/-- **Before the watermark has come to the time of a change, it was not handed over, at this
watermark once at most, and after it twice at most.** -/
theorem Polled.copies_le (polled : Polled plan polls watermark) (distinct : AllDistinct polls)
    (x : UInt64 × Instant) : Poll.copies polls x ≤ allowance watermark.time x.2 := by
  induction polled with
  | nil => exact Nat.zero_le _
  | cons earlier last ih =>
      rw [last.answered.2]
      exact (History.settled (.cons earlier last)).copies_cons_le distinct (ih distinct.tail)

theorem allowance_le_two (reached time : Instant) : allowance reached time ≤ 2 := by
  rw [allowance]
  split
  · exact Nat.zero_le _
  · split
    · exact Nat.le_succ 1
    · exact Nat.le_refl 2

theorem History.copies_le_two (history : History plan polls watermark)
    (distinct : AllDistinct polls) (x : UInt64 × Instant) : Poll.copies polls x ≤ 2 := by
  cases polls with
  | nil => exact Nat.zero_le _
  | cons p earlier =>
      have before := history.earlier.copies_le distinct.tail x
      exact Nat.le_trans (history.copies_cons_le distinct before) (allowance_le_two _ _)

/-- Polls that left the watermark at the start handed no change over. -/
theorem Polled.start_lt_of_copies (polled : Polled plan polls watermark)
    {x : UInt64 × Instant} (some_copies : Poll.copies polls x ≠ 0) :
    plan.start.time < watermark.time := by
  by_contra unmoved
  obtain ⟨p, member, told⟩ := List.mem_flatMap.mp
    (List.count_pos_iff.mp (Nat.pos_of_ne_zero some_copies))
  have none_handed := polled.handed_eq_nil (not_lt.mp unmoved) p (List.mem_reverse.mp member)
  rw [Poll.handed_eq_map_reported, List.map_eq_nil_iff] at none_handed
  rw [Poll.stamps, none_handed] at told
  cases told

/-- **A change that was handed over twice lies at a cutoff to which the watermark has moved.** -/
theorem History.exists_cutoff_of_twice (history : History plan polls watermark)
    (distinct : AllDistinct polls) {x : UInt64 × Instant} (twice : 2 ≤ Poll.copies polls x) :
    ∃ p ∈ polls, plan.start.time < p.cutoff.time ∧ p.cutoff.time = x.2 := by
  induction polls generalizing watermark with
  | nil => exact absurd twice (Nat.not_succ_le_zero 1)
  | cons p earlier ih =>
      by_cases before : 2 ≤ Poll.copies earlier x
      · obtain ⟨q, member, found⟩ := ih (.settled history.earlier) distinct.tail before
        exact ⟨q, List.mem_cons_of_mem p member, found⟩
      · obtain ⟨done, rest, hands⟩ := history.handsOver List.mem_cons_self
        have once := hands.count_stamps_le (distinct p List.mem_cons_self) x
        rw [Poll.copies_cons] at twice
        have allowed := history.earlier.copies_le distinct.tail x
        have told : x ∈ p.stamps := List.count_pos_iff.mp (by omega)
        obtain ⟨late, _⟩ := history.stamp_between List.mem_cons_self told
        have reached : x.2 ≤ p.cutoff.time := by
          by_contra early
          rw [allowance_of_lt (not_le.mp early)] at allowed
          omega
        exact ⟨p, List.mem_cons_self, history.earlier.start_lt_of_copies (x := x) (by omega),
          le_antisymm late reached⟩

end History

namespace Session

theorem Passes.stamps_eq {s : Session} (passes : s.Passes) :
    s.stamps = s.polls.reverse.flatMap Poll.stamps := by
  rw [stamps, passes.reported_eq, List.map_flatMap]
  rfl

/-- **How far a change is handed over twice.** Let no answer repeat a change. If two polls of a
session hand one change over, it lies at the watermark that the first of them came to and at the
cutoff of the second, and no poll between them is accepted. So no change is handed over more than
twice, and one that does not lie at a cutoff after the first is handed over once at most. -/
theorem repeated_only_at_watermark {now : Nat} {present : Instant} {plan : WatchPlan}
    {s : Session} {cues : List Cue} (run : (start now present plan).run? cues = some s)
    (distinct : ∀ p ∈ s.polls, ∀ found, p.answer = some (.ok found) → found.Distinct)
    (x : UInt64 × Instant) :
    (∀ (m n : Nat) (p q : Poll), m < n →
        s.polls.reverse[m]? = some p → s.polls.reverse[n]? = some q →
        x ∈ p.stamps → x ∈ q.stamps →
          x.2 = p.reached.time ∧ x.2 = q.cutoff.time ∧
            ∀ (k : Nat) (r : Poll), m < k → k < n → s.polls.reverse[k]? = some r →
              r.outcome ≠ some .ok) ∧
      s.stamps.count x ≤ 2 ∧
      ((∀ p ∈ s.polls, plan.start.time < p.cutoff.time → x.2 ≠ p.cutoff.time) →
        s.stamps.count x ≤ 1) := by
  have history := history_of_run run
  have stamps := (passes_of_run run).stamps_eq
  refine ⟨?_, ?_, ?_⟩
  · intro m n p q earlier atM atN toldP toldQ
    have memberP : p ∈ s.polls := List.mem_reverse.mp (List.mem_of_getElem? atM)
    have memberQ : q ∈ s.polls := List.mem_reverse.mp (List.mem_of_getElem? atN)
    have early := (history.stamp_between memberP toldP).2.1
    have late := (history.stamp_between memberQ toldQ).1
    have forward := history.reached_le_cutoff earlier atM atN
    refine ⟨le_antisymm early (le_trans forward late),
      le_antisymm (le_trans early forward) late, ?_⟩
    intro k r afterM beforeN atK accepted
    have memberR : r ∈ s.polls := List.mem_reverse.mp (List.mem_of_getElem? atK)
    have moved := history.moves memberR (.inl accepted)
    have toR := history.reached_le_cutoff afterM atM atK
    have fromR := history.reached_le_cutoff beforeN atK atN
    exact absurd (lt_of_le_of_lt (le_trans early toR) (lt_of_lt_of_le moved fromR))
      (not_lt.mpr late)
  · rw [stamps]
    exact history.copies_le_two distinct x
  · intro elsewhere
    by_contra twice
    rw [stamps] at twice
    obtain ⟨p, member, moved, here⟩ :=
      history.exists_cutoff_of_twice distinct (Nat.lt_of_not_le twice)
    exact elsewhere p member moved here.symm

/-- A change is handed over a second time with the first newer one, although the poll between was
skipped. -/
theorem handed_over_again_with_newer_change :
    ∃ s p q, (start 0 .epoch (.sample 6)).run?
        [.proceed 7000, .answer 7000 (.ok ⟨[.sample 1 0 8]⟩), .proceed 7000, .take 7000,
          .proceed 7000, .proceed 8000, .answer 8000 (.ok ⟨[.sample 1 0 8]⟩), .proceed 9000,
          .answer 9000 (.ok ⟨[.sample 1 0 8, .sample 2 0 9]⟩), .proceed 9000, .take 9000,
          .proceed 9000, .proceed 9000] = some s ∧
      s.stamps = [(1, .onFirstDay 8), (1, .onFirstDay 8), (2, .onFirstDay 9)] ∧
      s.polls.reverse[0]? = some p ∧ s.polls.reverse[2]? = some q ∧
      .onFirstDay 8 = p.reached.time ∧ .onFirstDay 8 = q.cutoff.time ∧
      s.stamps.count (1, .onFirstDay 8) ≤ 2 := by
  have batch₁ : (WatchPlan.sample 6).batch ⟨.onFirstDay 6⟩ ⟨[.sample 1 0 8]⟩ =
      [.ofInfo (.sample 1 0 8)] := WatchPlan.batch_of_pairwise (by decide)
  have batch₂ : (WatchPlan.sample 6).batch ⟨.onFirstDay 8⟩ ⟨[.sample 1 0 8, .sample 2 0 9]⟩ =
      [.ofInfo (.sample 1 0 8), .ofInfo (.sample 2 0 9)] := WatchPlan.batch_of_pairwise (by decide)
  have latest₁ : (SearchResponse.mk [.sample 1 0 8]).latestChange? = some ⟨.onFirstDay 8⟩ := rfl
  have latest₂ : (SearchResponse.mk [.sample 1 0 8, .sample 2 0 9]).latestChange? =
      some ⟨.onFirstDay 9⟩ := rfl
  have run₂ := (run?_accepted run?_firstSearch 7000 rfl rfl latest₁ (by decide) batch₁
    [.proceed 7000, .take 7000, .proceed 7000, .proceed 8000,
      .answer 8000 (.ok ⟨[.sample 1 0 8]⟩), .proceed 9000]).trans rfl
  have run := (run?_accepted run₂ 9000 rfl rfl latest₂ (by decide) batch₂
    [.proceed 9000, .take 9000, .proceed 9000, .proceed 9000]).trans rfl
  -- From here on only the polls of the last state are looked at, not the state itself.
  obtain ⟨s, run, polls⟩ : ∃ s, (start 0 .epoch (.sample 6)).run? _ = some s ∧ s.polls.reverse = [
      ⟨⟨.onFirstDay 6⟩, some (.ok ⟨[.sample 1 0 8]⟩), [.modified (.ofInfo (.sample 1 0 8))],
        some .ok⟩,
      ⟨⟨.onFirstDay 8⟩, some (.ok ⟨[.sample 1 0 8]⟩), [], some .skipped⟩,
      ⟨⟨.onFirstDay 8⟩, some (.ok ⟨[.sample 1 0 8, .sample 2 0 9]⟩),
        [.modified (.ofInfo (.sample 1 0 8)), .modified (.ofInfo (.sample 2 0 9))], some .ok⟩] :=
    ⟨_, run, rfl⟩
  have distinct : ∀ p ∈ s.polls, ∀ found, p.answer = some (.ok found) → found.Distinct := by
    intro p member found answered
    rw [← List.mem_reverse, polls] at member
    simp only [List.mem_cons, List.not_mem_nil, or_false] at member
    rcases member with rfl | rfl | rfl <;> cases answered <;> decide
  have stamps : s.stamps = [(1, .onFirstDay 8), (1, .onFirstDay 8), (2, .onFirstDay 9)] := by
    rw [(passes_of_run run).stamps_eq, polls]
    rfl
  obtain ⟨apart, twice, _⟩ := repeated_only_at_watermark run distinct (1, .onFirstDay 8)
  rw [polls] at apart
  obtain ⟨reached, cutoff, _⟩ :=
    apart 0 2 _ _ (by decide) rfl rfl List.mem_cons_self List.mem_cons_self
  exact ⟨s, _, _, run, stamps, by rw [polls]; rfl, by rw [polls]; rfl, reached, cutoff, twice⟩

end Session

end BugFeed
