import Mathlib.Data.List.Pairwise
import BugFeed.Proofs.Informer.Opening
import BugFeed.Proofs.Store.Contents

/-!
# A server and what is known of it

A server has one record of each bug. It changes and adds records, but only in seconds later than
all those of which it has told: the last such second is its floor. So what an answer told of a bug
is its present record, or the server has changed the bug since in a later second (`Tells`), and
this remains so whatever the server does (`Grows`, `Tells.grows`).

A store whose copies are all told by the server takes an event about another told version over
without giving up any present record (`Holds.apply`), and it holds the present record once an
event has reported it (`holds_of_apply`).
-/

namespace BugFeed

set_option autoImplicit false

/-- An instant that tokens and seconds tell apart from others: outside leap seconds and in a year
of four digits. -/
def Instant.Ordinary (t : Instant) : Prop :=
  t.inLeapSecond = false ∧ (ResourceVersion.mk t).Written

instance (t : Instant) : Decidable t.Ordinary := inferInstanceAs (Decidable (_ ∧ _))

theorem Instant.Ordinary.truncate {t : Instant} (h : t.Ordinary) : t.truncate.Ordinary := by
  refine ⟨?_, h.2.low, h.2.high⟩
  exact (DateTime.inLeapSecond_truncate t.toDateTime).trans h.1

/-- The second in which a bug changed. -/
def BugInfo.second (f : BugInfo) : Int := f.lastChange.unixSeconds

/-! ## Servers -/

/-- A server: its records, and the last second of which it has told. -/
structure Server where
  records : List BugInfo
  floor : Int

namespace Server

/-- A server with one record of each bug, all of them at ordinary instants. -/
structure Regular (v : Server) : Prop where
  distinct : v.records.Pairwise fun a b => a.id ≠ b.id
  ordinary : ∀ r ∈ v.records, r.lastChange.Ordinary

/-- The server after it changed or added a record. -/
def change (v : Server) (record : BugInfo) : Server :=
  { v with records := record :: v.records.filter fun r => r.id ≠ record.id }

/-- The server after it told of a second. -/
def tell (v : Server) (second : Int) : Server := { v with floor := max v.floor second }

/-- What an answer told of a bug: it is the present record, or the server has changed the bug
since in a later second. -/
structure Tells (v : Server) (f : BugInfo) : Prop where
  ordinary : f.lastChange.Ordinary
  settled : f.second ≤ v.floor
  present : ∃ r ∈ v.records, r.id = f.id ∧ (r = f ∨ f.second < r.second)

/-- A server that has gone on: what was told remains told, and new records are later than all that
was. -/
structure Grows (v w : Server) : Prop where
  tells : ∀ f, v.Tells f → w.Tells f
  floor : v.floor ≤ w.floor
  later : ∀ r ∈ w.records, r ∈ v.records ∨ v.floor < r.second

variable {v w : Server} {record : BugInfo}

theorem mem_change {r : BugInfo} :
    r ∈ (v.change record).records ↔ r = record ∨ (r ∈ v.records ∧ r.id ≠ record.id) := by
  simp only [change, List.mem_cons, List.mem_filter, decide_eq_true_eq]

theorem Regular.change (regular : v.Regular) (ordinary : record.lastChange.Ordinary) :
    (v.change record).Regular where
  distinct := by
    refine List.pairwise_cons.mpr ⟨?_, regular.distinct.filter _⟩
    intro r member
    have apart := (List.mem_filter.mp member).2
    exact Ne.symm (of_decide_eq_true apart)
  ordinary r member := by
    rcases mem_change.mp member with rfl | ⟨member, _⟩
    · exact ordinary
    · exact regular.ordinary r member

theorem Regular.tell (regular : v.Regular) (second : Int) : (v.tell second).Regular :=
  ⟨regular.distinct, regular.ordinary⟩

theorem grows_change (later : v.floor < record.second) : v.Grows (v.change record) where
  tells f told := by
    refine ⟨told.ordinary, told.settled, ?_⟩
    obtain ⟨r, member, same, now⟩ := told.present
    by_cases changed : r.id = record.id
    · refine ⟨record, mem_change.mpr (.inl rfl), changed.symm.trans same, .inr ?_⟩
      exact Int.lt_of_le_of_lt told.settled later
    · exact ⟨r, mem_change.mpr (.inr ⟨member, changed⟩), same, now⟩
  floor := Int.le_refl _
  later r member := by
    rcases mem_change.mp member with rfl | ⟨member, _⟩
    · exact .inr later
    · exact .inl member

theorem grows_tell (v : Server) (second : Int) : v.Grows (v.tell second) where
  tells _ told := ⟨told.ordinary, Int.le_trans told.settled (Int.le_max_left _ _), told.present⟩
  floor := Int.le_max_left _ _
  later _ member := .inl member

theorem Grows.refl (v : Server) : v.Grows v :=
  ⟨fun _ told => told, Int.le_refl _, fun _ member => .inl member⟩

/-- A record up to the floor is told. -/
theorem Regular.tells (regular : v.Regular) {r : BugInfo} (member : r ∈ v.records)
    (settled : r.second ≤ v.floor) : v.Tells r :=
  ⟨regular.ordinary r member, settled, r, member, rfl, .inl rfl⟩

/-- A bug has one record. -/
theorem Regular.eq_of_id_eq (regular : v.Regular) {a b : BugInfo} (ha : a ∈ v.records)
    (hb : b ∈ v.records) (same : a.id = b.id) : a = b := by
  have symm : Std.Symm fun a b : BugInfo => a.id ≠ b.id := ⟨fun _ _ h => Ne.symm h⟩
  by_contra apart
  exact regular.distinct.forall ha hb apart same

/-- What is told of a bug is its present record or lies in an earlier second. -/
theorem Tells.eq_or_lt (regular : v.Regular) {f r : BugInfo} (told : v.Tells f)
    (member : r ∈ v.records) (same : r.id = f.id) : f = r ∨ f.second < r.second := by
  obtain ⟨present, inside, id, now⟩ := told.present
  rw [regular.eq_of_id_eq inside member (id.trans same.symm)] at now
  exact now.imp_left Eq.symm

theorem Tells.le (regular : v.Regular) {f r : BugInfo} (told : v.Tells f) (member : r ∈ v.records)
    (same : r.id = f.id) : f.lastChange ≤ r.lastChange := by
  rcases told.eq_or_lt regular member same with rfl | earlier
  · exact le_refl _
  · exact le_of_lt (DateTime.lt_of_unixSeconds_lt earlier)

end Server

/-! ## Copies of what a server has told -/

/-- A store holds a record: the copy under its name is that of the record. -/
def Holds (c : Store) (r : BugInfo) : Prop := c.get? (Bug.nameOf r.id) = some (.ofInfo r)

/-- A store whose copies are all told by a server, each under its name. -/
def Copies (v : Server) (c : Store) : Prop :=
  ∀ name b, c.get? name = some b → ∃ f, b = .ofInfo f ∧ name = Bug.nameOf f.id ∧ v.Tells f

/-- An event reports, if a bug, then one that a server has told. -/
def Reports (v : Server) (event : WatchEvent) : Prop :=
  ∀ b, event.bug? = some b → ∃ f, b = .ofInfo f ∧ v.Tells f

/-- A store holds all records of a server up to a second. -/
def Covers (v : Server) (c : Store) (second : Int) : Prop :=
  ∀ r ∈ v.records, r.second ≤ second → Holds c r

variable {v w : Server} {c : Store} {event : WatchEvent}

theorem Copies.grows (copies : Copies v c) (grows : v.Grows w) : Copies w c := by
  intro name b found
  obtain ⟨f, same, hname, told⟩ := copies name b found
  exact ⟨f, same, hname, grows.tells f told⟩

theorem Reports.grows (reports : Reports v event) (grows : v.Grows w) : Reports w event := by
  intro b about
  obtain ⟨f, same, told⟩ := reports b about
  exact ⟨f, same, grows.tells f told⟩

theorem reports_of_tells {f : BugInfo} (told : v.Tells f)
    (about : event.bug? = some (.ofInfo f)) : Reports v event := by
  intro b same
  rw [about] at same
  exact ⟨f, (Option.some.inj same).symm, told⟩

/-- A store that holds all records up to a second that was told goes on to do so. -/
theorem Covers.grows {second : Int} (covers : Covers v c second) (grows : v.Grows w)
    (settled : second ≤ v.floor) : Covers w c second := by
  intro r member early
  rcases grows.later r member with before | later
  · exact covers r before early
  · omega

theorem Covers.mono {second earlier : Int} (covers : Covers v c second) (le : earlier ≤ second) :
    Covers v c earlier :=
  fun r member early => covers r member (Int.le_trans early le)

/-- What a store keeps of a bug that a server tells: its present record, or a version of an earlier
second. -/
theorem Copies.current (copies : Copies v c) (regular : v.Regular) {name : String}
    {b : Bug} (found : c.get? name = some b) :
    ∃ r ∈ v.records, name = Bug.nameOf r.id ∧
      (b = .ofInfo r ∨ b.lastChange.unixSeconds < r.second) := by
  obtain ⟨f, rfl, rfl, told⟩ := copies name b found
  obtain ⟨r, member, same, _⟩ := told.present
  refine ⟨r, member, by rw [same], ?_⟩
  rcases told.eq_or_lt regular member same with rfl | earlier
  · exact .inl rfl
  · exact .inr earlier

theorem Copies.apply (copies : Copies v c) (reports : Reports v event) :
    Copies v (c.apply event).1 := by
  intro name b found
  rcases Store.get?_apply found with before | ⟨about, same⟩
  · exact copies name b before
  · obtain ⟨f, rfl, told⟩ := reports b about
    exact ⟨f, rfl, same, told⟩

/-- An event about a present record puts it into the store. -/
theorem holds_of_apply (regular : v.Regular) (copies : Copies v c) {r : BugInfo}
    (member : r ∈ v.records) (about : event.bug? = some (.ofInfo r)) :
    Holds (c.apply event).1 r := by
  have taken : c.accepts (.ofInfo r) = true := by
    refine Store.accepts_iff.mpr ?_
    intro kept found
    obtain ⟨f, rfl, hname, told⟩ := copies _ _ found
    exact told.le regular member (Bug.nameOf_injective hname)
  rw [Store.apply_eq c about, if_pos taken]
  exact Store.get?_put_self c (.ofInfo r)

/-- A present record stays in the store when an event about a told version is taken over. -/
theorem Holds.apply (regular : v.Regular) (copies : Copies v c) {r : BugInfo}
    (holds : Holds c r) (member : r ∈ v.records) (reports : Reports v event) :
    Holds (c.apply event).1 r := by
  cases about : event.bug? with
  | none =>
      rw [Store.apply_eq_self c about]
      exact holds
  | some b =>
      obtain ⟨f, rfl, told⟩ := reports b about
      by_cases same : r.id = f.id
      · rcases told.eq_or_lt regular member same with rfl | earlier
        · exact holds_of_apply regular copies member about
        · -- The event is late: the store keeps the newer record.
          have newer : (Bug.ofInfo f).lastChange < (Bug.ofInfo r).lastChange :=
            DateTime.lt_of_unixSeconds_lt earlier
          have found : c.get? (Bug.ofInfo f).name = some (.ofInfo r) := by
            rw [Bug.ofInfo_name, ← same]
            exact holds
          have kept := Store.get?_apply_self c about
          rwa [found, Bug.orNewer_of_lt newer, Bug.ofInfo_name, ← same] at kept
      · have apart : Bug.nameOf r.id ≠ (Bug.ofInfo f).name :=
          fun h => same (Bug.nameOf_injective h)
        exact (Store.get?_apply_of_ne c about apart).trans holds

/-! ## Waiting events -/

/-- The version after an event has been seen. -/
def ResourceVersion.observe (v : ResourceVersion) (event : WatchEvent) : ResourceVersion :=
  match event.bug? with
  | some b => v.latest ⟨b.lastChange⟩
  | none => v

/-- The version after all of some events have been seen. -/
def ResourceVersion.observeAll (v : ResourceVersion) (events : List WatchEvent) :
    ResourceVersion :=
  events.foldl observe v

@[simp] theorem ResourceVersion.observeAll_append (v : ResourceVersion) (events : List WatchEvent)
    (event : WatchEvent) :
    v.observeAll (events ++ [event]) = (v.observeAll events).observe event := by
  simp only [observeAll, List.foldl_append, List.foldl_cons, List.foldl_nil]

theorem Copies.applyAll {events : List WatchEvent} (copies : Copies v c)
    (reports : ∀ event ∈ events, Reports v event) : Copies v (c.applyAll events) := by
  induction events generalizing c with
  | nil => exact copies
  | cons event events ih =>
      exact ih (copies.apply (reports event List.mem_cons_self))
        fun e member => reports e (List.mem_cons_of_mem _ member)

end BugFeed
