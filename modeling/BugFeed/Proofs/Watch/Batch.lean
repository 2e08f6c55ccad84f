import BugFeed.Proofs.Time.Order
import BugFeed.Watch.Session

/-!
# Answers and the batches made of them

The latest change of an answer is the greatest change time in it, and the batch of an answer holds
exactly its shown bugs from the cutoff on (`mem_batch`), in the order of their change times
(`batch_pairwise`).
-/

namespace BugFeed

set_option autoImplicit false

/-! ## The latest change -/

theorem latestChange?_eq_none_iff {bugs : List BugInfo} :
    latestChange? bugs = none ↔ bugs = [] := by
  cases bugs with
  | nil => simp [latestChange?]
  | cons b bugs =>
      simp only [latestChange?, reduceCtorEq, iff_false]
      split <;> simp

/-- No change of an answer is later than its latest one. -/
theorem le_latestChange {bugs : List BugInfo} {t : Instant} (latest : latestChange? bugs = some t)
    {b : BugInfo} (member : b ∈ bugs) : b.lastChange ≤ t := by
  induction bugs generalizing t with
  | nil => cases member
  | cons first bugs ih =>
      simp only [latestChange?] at latest
      split at latest
      · rename_i u hu
        cases latest
        rw [Instant.latest_eq_max]
        rcases List.mem_cons.mp member with rfl | member
        · exact le_max_left _ _
        · exact le_trans (ih hu member) (le_max_right _ _)
      · rename_i hnone
        cases latest
        rw [latestChange?_eq_none_iff.mp hnone, List.mem_singleton] at member
        rw [member]

/-- The latest change of an answer is the change of one of its bugs. -/
theorem exists_latestChange {bugs : List BugInfo} {t : Instant}
    (latest : latestChange? bugs = some t) : ∃ b ∈ bugs, b.lastChange = t := by
  induction bugs generalizing t with
  | nil => cases latest
  | cons first bugs ih =>
      simp only [latestChange?] at latest
      split at latest
      · rename_i u hu
        cases latest
        rw [Instant.latest_eq_max]
        rcases le_total u first.lastChange with hle | hle
        · exact ⟨first, List.mem_cons_self, (max_eq_left hle).symm⟩
        · obtain ⟨b, member, same⟩ := ih hu
          exact ⟨b, List.mem_cons_of_mem _ member, same.trans (max_eq_right hle).symm⟩
      · cases latest
        exact ⟨first, List.mem_cons_self, rfl⟩

namespace SearchResponse

variable {found : SearchResponse} {next : ResourceVersion}

theorem latestChange?_eq_none_iff : found.latestChange? = none ↔ found.bugs = [] := by
  rw [latestChange?, Option.map_eq_none_iff, BugFeed.latestChange?_eq_none_iff]

theorem le_latestChange (latest : found.latestChange? = some next) {b : BugInfo}
    (member : b ∈ found.bugs) : b.lastChange ≤ next.time := by
  obtain ⟨t, ht, rfl⟩ := Option.map_eq_some_iff.mp latest
  exact BugFeed.le_latestChange ht member

theorem exists_latestChange (latest : found.latestChange? = some next) :
    ∃ b ∈ found.bugs, b.lastChange = next.time := by
  obtain ⟨t, ht, rfl⟩ := Option.map_eq_some_iff.mp latest
  exact BugFeed.exists_latestChange ht

end SearchResponse

/-! ## Batches -/

@[simp] theorem Bug.ofInfo_name (f : BugInfo) : (Bug.ofInfo f).name = Bug.nameOf f.id := rfl

theorem Bug.ofInfo_injective {f g : BugInfo} (h : Bug.ofInfo f = Bug.ofInfo g) : f = g :=
  congrArg Bug.info h

namespace WatchPlan

variable (plan : WatchPlan)

/-- The event of a change is about the changed bug. -/
@[simp] theorem bug?_eventOf (b : Bug) : (plan.eventOf b).bug? = some b := by
  rw [eventOf]
  split <;> rfl

/-- A batch holds exactly the shown bugs of the answer that changed at the cutoff or later. -/
theorem mem_batch {cutoff : ResourceVersion} {found : SearchResponse} {b : Bug} :
    b ∈ plan.batch cutoff found ↔
      ∃ f ∈ found.bugs, plan.includes f = true ∧ Bug.ofInfo f = b ∧
        cutoff.time ≤ f.lastChange := by
  simp only [batch, List.mem_filter, List.mem_mergeSort, List.mem_map, decide_eq_true_eq]
  constructor
  · rintro ⟨⟨f, ⟨member, shown⟩, rfl⟩, late⟩
    exact ⟨f, member, shown, rfl, late⟩
  · rintro ⟨f, member, shown, rfl, late⟩
    exact ⟨⟨f, ⟨member, shown⟩, rfl⟩, late⟩

/-- A bug is handed over before another only if it did not change later. -/
theorem lastChange_le_of_before {a b : Bug} (h : before a b = true) :
    a.lastChange ≤ b.lastChange := by
  simp only [before, Bool.or_eq_true, Bool.and_eq_true, decide_eq_true_eq] at h
  rcases h with h | ⟨h, _⟩
  · exact le_of_lt h
  · exact le_of_eq h

/-- Of two changes at one time the one of the lower id is handed over first. -/
theorem id_le_of_before {a b : Bug} (h : before a b = true) (same : a.lastChange = b.lastChange) :
    a.id ≤ b.id := by
  simp only [before, Bool.or_eq_true, Bool.and_eq_true, decide_eq_true_eq] at h
  rcases h with earlier | ⟨_, id⟩
  · exact absurd earlier (not_lt.mpr (le_of_eq same.symm))
  · exact id

theorem before_trans (a b c : Bug) (ab : before a b = true) (bc : before b c = true) :
    before a c = true := by
  have hab := lastChange_le_of_before ab
  have hbc := lastChange_le_of_before bc
  simp only [before, Bool.or_eq_true, Bool.and_eq_true, decide_eq_true_eq] at ab bc ⊢
  rcases ab with ab | ⟨sameAb, idAb⟩
  · exact .inl (lt_of_lt_of_le ab hbc)
  · rcases bc with bc | ⟨sameBc, idBc⟩
    · exact .inl (lt_of_le_of_lt hab bc)
    · exact .inr ⟨sameAb.trans sameBc, UInt64.le_trans idAb idBc⟩

theorem before_total (a b : Bug) : (before a b || before b a) = true := by
  simp only [before, Bool.or_eq_true, Bool.and_eq_true, decide_eq_true_eq]
  rcases lt_trichotomy a.lastChange b.lastChange with h | h | h
  · exact .inl (.inl h)
  · rcases UInt64.le_total a.id b.id with hid | hid
    · exact .inl (.inr ⟨h, hid⟩)
    · exact .inr (.inr ⟨h.symm, hid⟩)
  · exact .inr (.inl h)

/-- The batch of an answer whose shown bugs already are in order. -/
theorem batch_of_pairwise {plan : WatchPlan} {cutoff : ResourceVersion} {found : SearchResponse}
    (sorted : ((found.bugs.filter plan.includes).map Bug.ofInfo).Pairwise fun a b => before a b) :
    plan.batch cutoff found =
      ((found.bugs.filter plan.includes).map Bug.ofInfo).filter fun b =>
        cutoff.time ≤ b.lastChange := by
  rw [batch, List.mergeSort_of_pairwise sorted]

/-- A batch is in the order in which changes are handed over. -/
theorem batch_sorted (cutoff : ResourceVersion) (found : SearchResponse) :
    (plan.batch cutoff found).Pairwise fun a b => before a b :=
  (List.pairwise_mergeSort before_trans before_total
    ((found.bugs.filter plan.includes).map Bug.ofInfo)).filter _

/-- A batch is in the order of the change times. -/
theorem batch_pairwise (cutoff : ResourceVersion) (found : SearchResponse) :
    (plan.batch cutoff found).Pairwise fun a b => a.lastChange ≤ b.lastChange :=
  (plan.batch_sorted cutoff found).imp fun h => lastChange_le_of_before h

/-- The order of the change times on both sides of a border in a batch. -/
theorem border_of_split {cutoff : ResourceVersion} {found : SearchResponse}
    {earlier rest : List Bug} {last first : Bug}
    (split : plan.batch cutoff found = (earlier ++ [last]) ++ first :: rest) :
    (∀ a ∈ earlier ++ [last], a.lastChange ≤ last.lastChange) ∧
      last.lastChange ≤ first.lastChange ∧
      ∀ b ∈ first :: rest, first.lastChange ≤ b.lastChange := by
  have sorted := plan.batch_pairwise cutoff found
  rw [split] at sorted
  obtain ⟨sortedDone, sortedRest, across⟩ := List.pairwise_append.mp sorted
  refine ⟨?_, across last List.mem_concat_self first List.mem_cons_self, ?_⟩
  · intro a member
    rcases List.mem_append.mp member with before | same
    · exact (List.pairwise_append.mp sortedDone).2.2 a before last List.mem_cons_self
    · rw [List.mem_singleton.mp same]
  · intro b member
    rcases List.mem_cons.mp member with rfl | after
    · exact le_refl _
    · exact List.rel_of_pairwise_cons sortedRest after

end WatchPlan

end BugFeed
