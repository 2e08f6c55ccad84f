import BugFeed.Proofs.Informer.Frame
import BugFeed.Proofs.Informer.Tokens
import BugFeed.Proofs.Store.Lookup

/-!
# The copies that an informer keeps

Whatever an informer writes was made from what a search reported: the bugs of a list are, and an
event that it takes from its watch is about a bug of an answer (`genuine_of_writes`). So its store
comes from the empty one by changes that bring genuine copies, in every run and also if others bring
such copies in between or the informer is started again (`Attained.reached`), and it finds its bugs
by their ids (`kept_and_found_by_id`).
-/

namespace BugFeed

set_option autoImplicit false

/-- A write as a change of the store. -/
def Write.change : Write → Store.Change
  | .list found => .replace found.items
  | .event taken => .apply taken

theorem Kept.store_write (k : Kept) (w : Write) : (k.write w).store = k.store.change w.change := by
  cases w <;> rfl

theorem BugList.genuine_of_mem_items {found : SearchResponse} {includes : BugInfo → Bool}
    {anchor : ResourceVersion} {b : Bug} (member : b ∈ (ofResponse found includes anchor).items) :
    b.Genuine := by
  obtain ⟨info, _, same⟩ := List.mem_map.mp member
  exact ⟨info, same.symm⟩

/-- An event that is taken from a session is about a bug that the session was answered. -/
theorem Session.Lawful.genuine_of_take {s t : Session} {now : Nat} {event : WatchEvent} {b : Bug}
    (lawful : s.Lawful) (taken : s.take? now = some (event, t)) (about : event.bug? = some b) :
    b.Genuine := by
  have later := lawful.take taken
  have received : event ∈ t.received := by
    rw [received_of_take taken]
    exact List.mem_append_right _ List.mem_cons_self
  obtain ⟨found, _, info, _, same⟩ :=
    later.exists_answered (later.passes.reported_of_received received about)
  exact ⟨info, same⟩

namespace Informer

variable {i j : Informer} {cue : Cue} {args : Option SearchArgs}

/-- The states of an informer that begins with an empty store. It may be started any number of
times, and others may bring genuine copies to its store at any time. -/
inductive Attained : Informer → Prop where
  | new (feed : Feed) (labels : Catalog String) (policy : BackoffPolicy) :
      Attained { feed := feed, labels := labels, policy := policy }
  | start {i : Informer} (attained : Attained i) (now : Nat) (stopping : Bool) :
      Attained (i.start now stopping)
  | follow {i j : Informer} {cue : Cue} {args : Option SearchArgs} (attained : Attained i)
      (follows : i.follow? cue = some (j, args)) : Attained j
  | change {i : Informer} {c : Store.Change} (attained : Attained i)
      (genuine : ∀ b ∈ c.bugs, b.Genuine) : Attained (i.withStore (i.store.change c))

theorem Attained.run {k : Informer} {cues : List Cue} (attained : i.Attained)
    (run : i.run? cues = some k) : k.Attained :=
  run?_preserves (fun follows attained => attained.follow follows) run attained

/-- The sessions that an informer attains do as their polls tell. -/
theorem Attained.sourced (attained : i.Attained) : i.Sourced fun _ => True := by
  induction attained with
  | new feed labels policy =>
      refine ⟨fun s own => ?_, fun retry deadline anchor phase => ?_, trivial, ?_⟩
      · cases own
      · cases phase
      · intro fault phase
        cases phase
  | start _ now stopping ih => exact .of_waiting ih.version (.inl ⟨now, rfl⟩)
  | follow _ follows ih => exact ih.follow (fun _ _ => trivial) (fun _ _ => trivial) follows
  | change _ _ ih => exact ⟨ih.session, ih.anchor, ih.version, ih.refused⟩

/-- **All that an informer writes was made from what a search reported.** -/
theorem genuine_of_writes {w : Write} (sourced : i.Sourced fun _ => True)
    (written : i.writes? cue = some w) : ∀ b ∈ w.change.bugs, b.Genuine := by
  obtain ⟨_, ⟨now, present, found, retry, deadline, anchor, version, _, _, _, rfl⟩ |
    ⟨now, present, s, t, event, b, _, phase, taken, about, rfl⟩⟩ := writes?_cases written
  · exact fun b => BugList.genuine_of_mem_items
  · intro c brought
    have lawful := (sourced.session s (by rw [session?, phase])).lawful
    exact lawful.genuine_of_take taken (Option.mem_toList.mp brought)

theorem reached_follow (sourced : i.Sourced fun _ => True) (reached : i.store.Reached)
    (follows : i.follow? cue = some (j, args)) : j.store.Reached := by
  have store : j.store = (i.kept.writeAll (i.writes? cue).toList).store :=
    congrArg Kept.store (kept_follow follows)
  rw [store]
  cases written : i.writes? cue with
  | none => exact reached
  | some w =>
      have one : (i.kept.writeAll (some w).toList).store = i.store.change w.change :=
        i.kept.store_write w
      rw [one]
      exact reached.change (genuine_of_writes sourced written)

/-- **The store of an informer comes from the empty one by changes that bring genuine copies.** -/
theorem Attained.reached (attained : i.Attained) : i.store.Reached := by
  induction attained with
  | new feed labels policy => exact .empty
  | start _ now stopping ih => exact ih
  | follow before follows ih => exact reached_follow before.sourced ih follows
  | change _ genuine ih => exact ih.change genuine

/-- **Copies are kept under the names of their ids and found by them.** The store of an informer
comes from the empty one by lists that take the place of all copies, by copies that are put there
and by events, all of them bringing copies that were made from what a search reported. A list leaves
the last of its copies of each name. In every such store

* each copy is kept under its name, which is its id in decimal, and its time of creation and its
  version are those of what was reported of it,
* a lookup finds a copy exactly if the store holds it and it has the id that is looked for, and
  says that nothing has the name of this id if the store holds no copy of it,
* a selection has exactly the copies that satisfy the predicate, in strictly ascending order of
  their ids, so that each is there once. -/
theorem kept_and_found_by_id :
    (∀ i : Informer, i.Attained → i.store.Reached) ∧
    (∀ (items : List Bug) name, (Store.replace items).get? name =
      (items.filter fun b => b.name = name).getLast?) ∧
    ∀ s : Store, s.Reached →
      (∀ key b, s.get? key = some b → key = b.name ∧ b.name = Bug.nameOf b.id ∧
        b.created = b.info.created ∧
        b.version = (ResourceVersion.mk b.info.lastChange).display) ∧
      (∀ id b, s.lookup id = .ok b ↔ ∃ key, s.get? key = some b ∧ b.id = id) ∧
      (∀ id, (∀ key b, s.get? key = some b → b.id ≠ id) →
        s.lookup id = .error (.notFound (Bug.nameOf id))) ∧
      ∀ p, (∀ b, b ∈ s.select p ↔ (∃ key, s.get? key = some b) ∧ p b = true) ∧
        (s.select p).Pairwise fun a b => a.id < b.id := by
  refine ⟨fun i attained => attained.reached, Store.get?_replace_eq_getLast?, fun s reached => ?_⟩
  have keyed := reached.keyed
  refine ⟨fun key b found => ?_, fun id b => keyed.lookup_eq_ok_iff,
    fun id => keyed.lookup_eq_error, fun p => ⟨fun b => Store.mem_select_iff,
      keyed.pairwise_select p⟩⟩
  have kept := keyed key b found
  exact ⟨kept.key_eq, kept.name_eq, kept.created_eq, kept.version_eq⟩

/-- Someone brings a list of two bugs, one of them twice, to the store of an informer. -/
theorem kept_and_found_by_id_of_two :
    let bug (id : UInt64) (changed : Nat) : Bug := .ofInfo (.sample id 0 changed)
    let c : Store.Change := .replace [bug 1 7, bug 2 9, bug 1 6]
    let i := (watchingSample {}).withStore ((watchingSample {}).store.change c)
    i.Attained ∧ i.store.lookup 1 = .ok (bug 1 6) ∧ i.store.lookup 2 = .ok (bug 2 9) ∧
      i.store.lookup 3 = .error (.notFound (Bug.nameOf 3)) ∧
      bug 2 9 ∈ i.store.select (fun b => b.id != 1) ∧
      (i.store.select fun b => b.id != 1).Pairwise fun a b => a.id < b.id := by
  intro bug c i
  have genuine : ∀ b ∈ c.bugs, b.Genuine := by
    intro b brought
    obtain rfl | rfl | rfl : b = bug 1 7 ∨ b = bug 2 9 ∨ b = bug 1 6 := by
      simpa [c, Store.Change.bugs] using brought
    all_goals exact ⟨_, rfl⟩
  have watching : (watchingSample {}).Attained :=
    ((Attained.new {} .empty {}).start 0 false).run
      ((watchingSample_reached (by decide) []).trans rfl)
  have attained : i.Attained := watching.change genuine
  obtain ⟨stores, lists, finds⟩ := kept_and_found_by_id
  obtain ⟨_, found, absent, selects⟩ := finds i.store (stores i attained)
  have first : i.store.get? (Bug.nameOf 1) = some (bug 1 6) := (lists _ _).trans rfl
  have second : i.store.get? (Bug.nameOf 2) = some (bug 2 9) := (lists _ _).trans rfl
  obtain ⟨selected, ascending⟩ := selects fun b => b.id != 1
  refine ⟨attained, (found 1 _).mpr ⟨_, first, rfl⟩, (found 2 _).mpr ⟨_, second, rfl⟩,
    absent 3 fun key b there => ?_, (selected _).mpr ⟨⟨_, second⟩, rfl⟩, ascending⟩
  obtain rfl | rfl | rfl : b = bug 1 7 ∨ b = bug 2 9 ∨ b = bug 1 6 := by
    simpa using (Store.mem_of_get?_replace there).1
  all_goals decide

end Informer

end BugFeed
