import BugFeed.Proofs.Informer.World

/-!
# How far a store covers a server

An honest answer holds all records that its search asks for, up to the last second of which the
server has told (`Request.answered_of_honest`), and this remains so while the answer is under way
(`Request.Answered.grows`).

A store covers the records up to a second (`Covering`). The batch of an answer carries it from
there to the second of the next watermark (`Covering.midway`), one change at a time
(`Midway.hand`). Where the batch ends, all records up to that second are covered
(`Midway.finish`), and where it is cut, all up to the second handed over last (`Midway.cut`).
-/

namespace BugFeed

set_option autoImplicit false

/-! ## Answers -/

/-- What an honest answer says as long as it is under way: it holds told versions of bugs that the
search asks for, all present records up to the floor, and all of them if the server has changed
nothing since the search began. -/
structure Request.Answered (v : Server) (settled : Prop) (request : Request)
    (found : SearchResponse) : Prop where
  tells : ∀ f ∈ found.bugs, v.Tells f
  wanted : ∀ f ∈ found.bugs, request.args.wants f = true
  complete : ∀ r ∈ v.records, request.args.wants r = true → r.second ≤ v.floor → r ∈ found.bugs
  quiet : settled → ∀ r ∈ v.records, request.args.wants r = true → r ∈ found.bugs
  distinct : found.bugs.Pairwise fun a b => a.id ≠ b.id
  anchored : found.latestChange? = none → request.args.changedSince = none →
    request.began.unixSeconds ≤ v.floor

theorem SearchArgs.wants_iff {args : SearchArgs} {t : Instant} (since : args.changedSince = some t)
    (f : BugInfo) : args.wants f = true ↔ t.unixSeconds ≤ f.second := by
  simp only [wants, since, decide_eq_true_eq]

theorem Server.tellOf_records (v : Server) (second : Option Int) :
    (v.tellOf second).records = v.records := by
  cases second <;> rfl

theorem Server.grows_tellOf (v : Server) (second : Option Int) : v.Grows (v.tellOf second) := by
  cases second with
  | none => exact .refl v
  | some second => exact v.grows_tell second

theorem Server.Regular.tellOf {v : Server} (regular : v.Regular) (second : Option Int) :
    (v.tellOf second).Regular := by
  cases second with
  | none => exact regular
  | some second => exact regular.tell second

/-- An honest answer says what there is when the server finds it. -/
theorem Request.answered_of_honest {v : Server} (regular : v.Regular) (settled : Prop)
    (request : Request) {found : SearchResponse} (honest : v.Honest request.args (.ok found)) :
    Answered (v.tellOf (request.tellsOf? (.ok found))) settled request found := by
  have inside : ∀ r, r ∈ found.bugs ↔ r ∈ v.records ∧ request.args.wants r = true := fun r =>
    honest.mem_iff.trans List.mem_filter
  have reached : ∀ f ∈ found.bugs,
      f.second ≤ (v.tellOf (request.tellsOf? (.ok found))).floor := by
    intro f member
    cases latest : found.latestChange? with
    | none =>
        rw [SearchResponse.latestChange?_eq_none_iff.mp latest] at member
        cases member
    | some next =>
        have le := DateTime.unixSeconds_le_of_le (SearchResponse.le_latestChange latest member)
        simp only [Request.tellsOf?, latest]
        exact Int.le_trans le (Int.le_max_right _ _)
  have told := regular.tellOf (request.tellsOf? (.ok found))
  have present : ∀ r ∈ (v.tellOf (request.tellsOf? (.ok found))).records,
      request.args.wants r = true → r ∈ found.bugs := by
    intro r member wanted
    rw [v.tellOf_records] at member
    exact (inside r).mpr ⟨member, wanted⟩
  refine ⟨?_, fun f member => ((inside f).mp member).2,
    fun r member wanted _ => present r member wanted, fun _ => present, ?_, ?_⟩
  · intro f member
    refine told.tells ?_ (reached f member)
    rw [v.tellOf_records]
    exact ((inside f).mp member).1
  · have symm : ∀ {a b : BugInfo}, a.id ≠ b.id → b.id ≠ a.id := fun h => Ne.symm h
    exact (honest.pairwise_iff symm).mpr (regular.distinct.filter _)
  · intro nothing since
    simp only [Request.tellsOf?, nothing, since, Option.isNone_none, if_true]
    exact Int.le_max_right _ _

/-- What an answer says remains true while it is under way. -/
theorem Request.Answered.grows {v w : Server} {settled settled' : Prop} {request : Request}
    {found : SearchResponse} (answered : Answered v settled request found) (grows : v.Grows w)
    (floor : w.floor = v.floor)
    (quiet : settled' → settled ∧ ∀ r ∈ w.records, r ∈ v.records) :
    Answered w settled' request found where
  tells f member := grows.tells f (answered.tells f member)
  wanted := answered.wanted
  complete r member wanted early := by
    rcases grows.later r member with before | later
    · exact answered.complete r before wanted (by omega)
    · omega
  quiet h r member wanted := answered.quiet (quiet h).1 r ((quiet h).2 r member) wanted
  distinct := answered.distinct
  anchored nothing since := by
    rw [floor]
    exact answered.anchored nothing since

/-! ## Between two batches -/

variable {v w : Server} {c : Store} {covered version next : Int} {rest : List Bug}
  {last : Option Instant} {b : Bug}

/-- The records up to a second that the server has told of are in the store, and the version of the
informer is not beyond it. -/
structure Covering (v : Server) (c : Store) (covered version : Int) : Prop where
  covers : Covers v c covered
  told : covered ≤ v.floor
  behind : version ≤ covered

theorem Covering.grows (covering : Covering v c covered version) (grows : v.Grows w) :
    Covering w c covered version :=
  ⟨covering.covers.grows grows covering.told, Int.le_trans covering.told grows.floor,
    covering.behind⟩

/-- What is covered is covered up to the version. -/
theorem Covering.atVersion (covering : Covering v c covered version) :
    Covering v c version version :=
  ⟨covering.covers.mono covering.behind, Int.le_trans covering.behind covering.told, Int.le_refl _⟩

/-! ## Within a batch -/

/-- During the delivery of a batch, the records up to the second of the next watermark are in the
store but for those that remain to be handed over, in the order of their changes. The version of
the informer is not beyond what was covered before, or it is the second that is being handed
over. -/
structure Midway (v : Server) (c : Store) (covered version : Int) (rest : List Bug)
    (last : Option Instant) (next : Int) : Prop where
  covers : Covers v c covered
  begun : covered ≤ next
  told : next ≤ v.floor
  remain : ∀ r ∈ v.records, r.second ≤ next → Holds c r ∨ .ofInfo r ∈ rest
  tells : ∀ b ∈ rest, ∃ f, b = .ofInfo f ∧ v.Tells f ∧ version ≤ f.second ∧ f.second ≤ next
  sorted : rest.Pairwise fun a b => a.lastChange ≤ b.lastChange
  reached : version ≤ covered ∨
    (version ≤ next ∧ ∃ t, last = some t ∧ t.unixSeconds = version ∧ t.nano = 0)

namespace Midway

theorem grows (midway : Midway v c covered version rest last next) (grows : v.Grows w) :
    Midway w c covered version rest last next where
  covers := midway.covers.grows grows (Int.le_trans midway.begun midway.told)
  begun := midway.begun
  told := Int.le_trans midway.told grows.floor
  remain r member early := by
    rcases grows.later r member with before | later
    · exact midway.remain r before early
    · exact absurd (Int.le_trans early midway.told) (Int.not_le.mpr later)
  tells b member := by
    obtain ⟨f, same, told, bounds⟩ := midway.tells b member
    exact ⟨f, same, grows.tells f told, bounds⟩
  sorted := midway.sorted
  reached := midway.reached

/-- Once a batch is handed over, the records up to the second of the next watermark are covered. -/
theorem finish (midway : Midway v c covered version [] last next) : Covering v c next version where
  covers r member early := (midway.remain r member early).resolve_right List.not_mem_nil
  told := midway.told
  behind := by
    rcases midway.reached with behind | ⟨within, _⟩
    · exact Int.le_trans behind midway.begun
    · exact within

/-- Where a batch is cut, the records up to the version of the informer are covered: the second
that was being handed over is complete. -/
theorem cut (midway : Midway v c covered version (b :: rest) last next)
    (fresh : last ≠ some b.lastChange.truncate) : Covering v c version version := by
  rcases midway.reached with behind | ⟨within, t, rfl, second, whole⟩
  · exact Covering.atVersion ⟨midway.covers, Int.le_trans midway.begun midway.told, behind⟩
  · obtain ⟨f, rfl, told, low, _⟩ := midway.tells b List.mem_cons_self
    have later : version < f.second := by
      refine Int.lt_iff_le_and_ne.mpr ⟨low, fun same => fresh (congrArg some ?_)⟩
      refine Instant.eq_of_unixSeconds_eq (second.trans same) (whole.trans ?_)
      exact (DateTime.truncate_nano told.ordinary.1).symm
    refine ⟨?_, Int.le_trans within midway.told, Int.le_refl _⟩
    intro r member early
    refine (midway.remain r member (Int.le_trans early within)).resolve_right ?_
    intro remains
    have le : f.second ≤ r.second := by
      rcases List.mem_cons.mp remains with same | remains
      · rw [Bug.ofInfo_injective same]
      · exact DateTime.unixSeconds_le_of_le ((List.pairwise_cons.mp midway.sorted).1 _ remains)
    omega

/-- A change that is handed over is in the store from then on. -/
theorem hand (regular : v.Regular) (copies : Copies v c) {event : WatchEvent}
    (midway : Midway v c covered version (b :: rest) last next) (about : event.bug? = some b) :
    Midway v (c.apply event).1 covered b.lastChange.unixSeconds rest
      (some b.lastChange.truncate) next := by
  obtain ⟨f, rfl, told, low, high⟩ := midway.tells b List.mem_cons_self
  obtain ⟨first, sorted⟩ := List.pairwise_cons.mp midway.sorted
  have reports : Reports v event := reports_of_tells told about
  refine ⟨?_, midway.begun, midway.told, ?_, ?_, sorted,
    .inr ⟨high, _, rfl, rfl, DateTime.truncate_nano told.ordinary.1⟩⟩
  · intro r member early
    exact (midway.covers r member early).apply regular copies member reports
  · intro r member early
    rcases midway.remain r member early with holds | remains
    · exact .inl (holds.apply regular copies member reports)
    · rcases List.mem_cons.mp remains with same | remains
      · rw [← same] at about
        exact .inl (holds_of_apply regular copies member about)
      · exact .inr remains
  · intro other member
    obtain ⟨g, rfl, later, _, high⟩ := midway.tells other (List.mem_cons_of_mem _ member)
    exact ⟨g, rfl, later, DateTime.unixSeconds_le_of_le (first _ member), high⟩

end Midway

/-! ## Answers to a session -/

section Answers

variable {settled : Prop} {request : Request} {found : SearchResponse} {cutoff : ResourceVersion}

/-- Once the server is quiet, the records beyond what a session has covered are in its answer. -/
theorem Request.Answered.beyond (answered : request.Answered v settled found)
    (since : request.args.changedSince = some cutoff.time)
    (edge : ∀ t : Instant, covered < t.unixSeconds → cutoff.time ≤ t) (quiet : settled)
    {r : BugInfo} (member : r ∈ v.records) (late : covered < r.second) :
    r ∈ found.bugs ∧ cutoff.time ≤ r.lastChange := by
  have reached := edge r.lastChange late
  refine ⟨answered.quiet quiet r member ?_, reached⟩
  exact (SearchArgs.wants_iff since r).mpr (DateTime.unixSeconds_le_of_le reached)

/-- The latest change of an honest answer is told. -/
theorem Request.Answered.latest_told {next : ResourceVersion}
    (answered : request.Answered v settled found) (latest : found.latestChange? = some next) :
    next.time.Ordinary ∧ next.time.unixSeconds ≤ v.floor := by
  obtain ⟨f, member, same⟩ := SearchResponse.exists_latestChange latest
  rw [← same]
  exact ⟨(answered.tells f member).ordinary, (answered.tells f member).settled⟩

/-- The batch of an accepted answer leads from what was covered to the second of the next
watermark. -/
theorem Covering.midway {plan : WatchPlan} {next : ResourceVersion}
    (covering : Covering v c covered version) (answered : request.Answered v settled found)
    (since : request.args.changedSince = some cutoff.time)
    (shows : ∀ f, plan.includes f = true) (low : covered ≤ cutoff.time.unixSeconds)
    (edge : ∀ t : Instant, covered < t.unixSeconds → cutoff.time ≤ t)
    (latest : found.latestChange? = some next) (fresh : cutoff.time < next.time) :
    Midway v c covered version (plan.batch cutoff found) none next.time.unixSeconds where
  covers := covering.covers
  begun := Int.le_trans low (DateTime.unixSeconds_le_of_le (le_of_lt fresh))
  told := (answered.latest_told latest).2
  remain r member early := by
    by_cases before : r.second ≤ covered
    · exact .inl (covering.covers r member before)
    · have reached := edge r.lastChange (Int.not_le.mp before)
      have wanted := (SearchArgs.wants_iff since r).mpr (DateTime.unixSeconds_le_of_le reached)
      have inside := answered.complete r member wanted
        (Int.le_trans early (answered.latest_told latest).2)
      exact .inr (plan.mem_batch.mpr ⟨r, inside, shows r, rfl, reached⟩)
  tells b member := by
    obtain ⟨f, inside, _, rfl, late⟩ := plan.mem_batch.mp member
    refine ⟨f, rfl, answered.tells f inside, ?_, ?_⟩
    · exact Int.le_trans (Int.le_trans covering.behind low) (DateTime.unixSeconds_le_of_le late)
    · exact DateTime.unixSeconds_le_of_le (SearchResponse.le_latestChange latest inside)
  sorted := plan.batch_pairwise cutoff found
  reached := .inl covering.behind

end Answers

end BugFeed
