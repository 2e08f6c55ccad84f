import BugFeed.Proofs.Store.Contents

/-!
# Finding bugs by their ids

A bug is looked for under the text of its id, and a selection is in the order of the ids as numbers.
Both find the copies of a store because each is kept under its name and this is its id in decimal
(`Store.Keyed`). Different ids have different names, so under the name of an id there is the copy of
that id or none (`Store.Keyed.lookup_eq_ok_iff`). The copies of a store have different ids, so that
no two of them change places in a selection (`Store.Keyed.pairwise_select`).

A store is keyed if all copies that were ever brought there were made from what a search reported
(`Store.Reached.keyed`), since each of them brings its own name along, however it comes: put there
alone, with an event, or with a list, which first removes what is not in it
(`Store.replace_eq_foldl_put`).
-/

namespace BugFeed

set_option autoImplicit false

/-! ## Copies that were made from what a search reported -/

namespace Bug

/-- A copy that was made from what a search reported. -/
def Genuine (b : Bug) : Prop := ∃ info, b = .ofInfo info

/-- A copy is kept under its name, which is its id in decimal, and its times are those of what was
reported. -/
structure KeptAs (b : Bug) (key : String) : Prop where
  key_eq : key = b.name
  name_eq : b.name = nameOf b.id
  created_eq : b.created = b.info.created
  version_eq : b.version = (ResourceVersion.mk b.info.lastChange).display

theorem Genuine.keptAs {b : Bug} (genuine : b.Genuine) : b.KeptAs b.name := by
  obtain ⟨info, rfl⟩ := genuine
  exact ⟨rfl, rfl, rfl, rfl⟩

theorem KeptAs.key_eq_nameOf {b : Bug} {key : String} (kept : b.KeptAs key) :
    key = nameOf b.id := kept.key_eq.trans kept.name_eq

end Bug

namespace Catalog

theorem get?_keep {α : Type} (c : Catalog α) (p : String → Bool) (key : String) :
    (c.keep p).get? key = if p key then c.get? key else none := by
  refine Option.ext fun value => ?_
  rw [get?_eq_some_iff, keep, List.mem_filter, ← get?_eq_some_iff]
  split
  · rename_i holds
    exact and_iff_left holds
  · rename_i fails
    exact iff_of_false (fun h => fails h.2) fun h => nomatch h

theorem mem_values_iff {α : Type} (c : Catalog α) {value : α} :
    value ∈ c.values ↔ ∃ key, c.get? key = some value := by
  simp only [values, List.mem_map, get?_eq_some_iff]
  exact ⟨fun ⟨e, member, same⟩ => ⟨e.1, same ▸ member⟩, fun ⟨key, member⟩ => ⟨_, member, rfl⟩⟩

end Catalog

namespace Store

/-! ## Changes -/

/-- Something that changes a store. -/
inductive Change where
  /-- A list takes the place of all copies. -/
  | replace (items : List Bug)
  /-- A copy is put there. -/
  | put (b : Bug)
  /-- An event is taken over. -/
  | apply (event : WatchEvent)

/-- The copies that a change brings. -/
def Change.bugs : Change → List Bug
  | .replace items => items
  | .put b => [b]
  | .apply event => event.bug?.toList

def change (s : Store) : Change → Store
  | .replace items => .replace items
  | .put b => s.put b
  | .apply event => (s.apply event).1

/-- The stores that come from the empty one by changes that bring genuine copies. -/
inductive Reached : Store → Prop where
  | empty : Reached .empty
  | change {s : Store} {c : Change} (reached : Reached s) (genuine : ∀ b ∈ c.bugs, b.Genuine) :
      Reached (s.change c)

variable {s : Store} {c : Change} {name key : String} {b : Bug}

/-- A copy found after a change was found before, or the change brought it there under its name. -/
theorem get?_change (found : (s.change c).get? key = some b) :
    s.get? key = some b ∨ (b ∈ c.bugs ∧ key = b.name) := by
  cases c with
  | replace items => exact .inr (mem_of_get?_replace found)
  | put d =>
      rcases get?_put found with before | ⟨rfl, same⟩
      · exact .inl before
      · exact .inr ⟨List.mem_singleton_self b, same⟩
  | apply event =>
      rcases get?_apply found with before | ⟨about, same⟩
      · exact .inl before
      · exact .inr ⟨Option.mem_toList.mpr about, same⟩

/-- A list takes the place of all copies in two steps: those are removed whose names are not in the
list, and then each copy of the list is put there. What is left is the same as if the store had been
empty before. -/
theorem replace_eq_foldl_put (s : Store) (items : List Bug) :
    replace items =
      items.foldl put ⟨s.bugs.keep fun name => items.any fun b => b.name == name⟩ := by
  refine eq_of_get?_eq fun name => ?_
  rw [get?_replace_eq_getLast?, get?_foldl_put_eq_or]
  cases last : (items.filter fun b => b.name = name).getLast? with
  | some b => rfl
  | none =>
      have absent : (items.any fun b => b.name == name) = false := by
        have nothing := List.filter_eq_nil_iff.mp (List.getLast?_eq_none_iff.mp last)
        simpa using nothing
      rw [Option.none_or, get?, Catalog.get?_keep, absent]
      rfl

/-! ## Keys -/

/-- Each copy in a store is kept as it should be. -/
def Keyed (s : Store) : Prop := ∀ key b, s.get? key = some b → b.KeptAs key

theorem Keyed.change (keyed : s.Keyed) (genuine : ∀ b ∈ c.bugs, b.Genuine) :
    (s.change c).Keyed := by
  intro key b found
  rcases get?_change found with before | ⟨brought, rfl⟩
  · exact keyed key b before
  · exact (genuine b brought).keptAs

/-- **A store that only genuine copies were brought to keeps each under the name of its id.** -/
theorem Reached.keyed (reached : s.Reached) : s.Keyed := by
  induction reached with
  | empty =>
      intro key b found
      cases found
  | change _ genuine ih => exact ih.change genuine

namespace Keyed

variable (keyed : s.Keyed)

include keyed

/-! ## Finding one bug -/

theorem get?_nameOf_iff {id : UInt64} :
    s.get? (Bug.nameOf id) = some b ↔ ∃ key, s.get? key = some b ∧ b.id = id := by
  constructor
  · intro found
    exact ⟨_, found, (Bug.nameOf_injective (keyed _ _ found).key_eq_nameOf).symm⟩
  · rintro ⟨key, found, rfl⟩
    rwa [← (keyed key b found).key_eq_nameOf]

/-- **A copy is found by an id exactly if the store holds it and it has this id.** -/
theorem lookup_eq_ok_iff {id : UInt64} :
    s.lookup id = .ok b ↔ ∃ key, s.get? key = some b ∧ b.id = id := by
  rw [← keyed.get?_nameOf_iff, lookup]
  cases s.get? (Bug.nameOf id) <;> simp

theorem lookup_eq_error {id : UInt64} (absent : ∀ key b, s.get? key = some b → b.id ≠ id) :
    s.lookup id = .error (.notFound (Bug.nameOf id)) := by
  have nothing : s.get? (Bug.nameOf id) = none := by
    cases found : s.get? (Bug.nameOf id) with
    | none => rfl
    | some b =>
        obtain ⟨key, there, same⟩ := keyed.get?_nameOf_iff.mp found
        exact absurd same (absent key b there)
  rw [lookup, nothing]

/-! ## Selecting bugs -/

/-- No two copies of a store have one id. -/
theorem pairwise_values : s.bugs.values.Pairwise fun a b => a.id ≠ b.id := by
  rw [Catalog.values, List.pairwise_map]
  refine s.bugs.ordered.imp_of_mem fun {d e} hd he below same => ?_
  have first := (keyed d.1 d.2 (s.bugs.get?_eq_some_iff.mpr hd)).key_eq_nameOf
  have second := (keyed e.1 e.2 (s.bugs.get?_eq_some_iff.mpr he)).key_eq_nameOf
  rw [first, second, same] at below
  exact String.lt_irrefl _ below

/-- **A selection is in strictly ascending order of the ids.** -/
theorem pairwise_select (p : Bug → Bool) : (s.select p).Pairwise fun a b => a.id < b.id := by
  have trans (a b c : Bug) (ab : decide (a.id ≤ b.id) = true) (bc : decide (b.id ≤ c.id) = true) :
      decide (a.id ≤ c.id) = true :=
    decide_eq_true (UInt64.le_trans (of_decide_eq_true ab) (of_decide_eq_true bc))
  have total (a b : Bug) : (decide (a.id ≤ b.id) || decide (b.id ≤ a.id)) = true := by
    simpa using UInt64.le_total a.id b.id
  have ascending : (s.select p).Pairwise fun a b => a.id ≤ b.id :=
    (List.pairwise_mergeSort trans total (s.bugs.values.filter p)).imp of_decide_eq_true
  have apart : (s.select p).Pairwise fun a b => a.id ≠ b.id :=
    (List.mergeSort_perm _ _).symm.pairwise (keyed.pairwise_values.sublist List.filter_sublist)
      fun h same => h same.symm
  exact ascending.imp₂ (fun _ _ below other => UInt64.lt_of_le_of_ne below other) apart

end Keyed

/-- A selection has the copies of the store that satisfy the predicate. -/
theorem mem_select_iff {p : Bug → Bool} :
    b ∈ s.select p ↔ (∃ key, s.get? key = some b) ∧ p b = true := by
  rw [select, List.mem_mergeSort, List.mem_filter, Catalog.mem_values_iff]
  rfl

end Store

end BugFeed
