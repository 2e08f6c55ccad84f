import Mathlib.Data.List.Pairwise
import BugFeed.Proofs.Time.Order
import BugFeed.Store

/-!
# What a store holds

Putting a value under a key changes what is found there and nothing else
(`Catalog.get?_insert_self`, `Catalog.get?_insert_of_ne`), and catalogs in which the same is found
under every key are the same (`Catalog.eq_of_get?_eq`).

An event acts under one name: the copy that it reports takes the place of the one that is kept
there, unless that one changed later (`Store.get?_apply_self`, `Store.get?_apply_of_ne`). So a copy
found in a store was found there before an event or is the one that the event reports
(`Store.get?_apply`), and the copy under a name never gives way to an older one
(`Store.exists_le_get?_apply`). What is found after some events was found before or is reported by
one of them (`Store.get?_applyAll`).

A store that replaces its contents holds only copies from the new list
(`Store.mem_of_get?_replace`), the last one of each name (`Store.get?_replace_eq_getLast?`), and all
of them if their names are distinct (`Store.get?_replace`).
-/

namespace BugFeed

set_option autoImplicit false

/-! ## Catalogs -/

namespace Catalog

variable {α : Type}

theorem find?_insertEntry_self (key : String) (value : α) (es : List (String × α)) :
    (insertEntry key value es).find? (fun e => e.1 == key) = some (key, value) := by
  induction es with
  | nil => exact List.find?_cons_of_pos (beq_self_eq_true key)
  | cons e es ih =>
      rw [insertEntry]
      by_cases first : key < e.1
      · rw [if_pos first]
        exact List.find?_cons_of_pos (beq_self_eq_true key)
      · rw [if_neg first]
        by_cases same : key = e.1
        · rw [if_pos same]
          exact List.find?_cons_of_pos (beq_self_eq_true key)
        · rw [if_neg same, List.find?_cons_of_neg (by simpa using Ne.symm same)]
          exact ih

theorem find?_insertEntry_of_ne {key other : String} (h : other ≠ key) (value : α)
    (es : List (String × α)) :
    (insertEntry key value es).find? (fun e => e.1 == other) =
      es.find? fun e => e.1 == other := by
  have apart : ((key, value).1 == other) = false := beq_false_of_ne (Ne.symm h)
  induction es with
  | nil => rw [insertEntry, List.find?_cons, apart]
  | cons e es ih =>
      rw [insertEntry]
      by_cases first : key < e.1
      · rw [if_pos first, List.find?_cons, apart]
      · rw [if_neg first]
        by_cases same : key = e.1
        · rw [if_pos same, List.find?_cons, apart, List.find?_cons, ← same,
            beq_false_of_ne (Ne.symm h)]
        · rw [if_neg same, List.find?_cons, List.find?_cons, ih]

@[simp] theorem get?_insert_self (c : Catalog α) (key : String) (value : α) :
    (c.insert key value).get? key = some value := by
  rw [get?, insert, find?_insertEntry_self, Option.map_some]

theorem get?_insert_of_ne (c : Catalog α) {key other : String} (h : other ≠ key) (value : α) :
    (c.insert key value).get? other = c.get? other := by
  rw [get?, insert, find?_insertEntry_of_ne h, get?]

theorem find?_eq_some_iff {key : String} {value : α} {es : List (String × α)}
    (ordered : es.Pairwise fun a b => a.1 < b.1) :
    (es.find? fun e => e.1 == key).map Prod.snd = some value ↔ (key, value) ∈ es := by
  induction es with
  | nil => simp
  | cons e es ih =>
      obtain ⟨first, rest⟩ := List.pairwise_cons.mp ordered
      by_cases same : e.1 = key
      · subst same
        have below : (e.1, value) ∉ es := fun later =>
          String.lt_irrefl e.1 (first (e.1, value) later)
        have found : (e :: es).find? (fun d => d.1 == e.1) = some e :=
          List.find?_cons_of_pos (beq_self_eq_true e.1)
        rw [found, Option.map_some, List.mem_cons, or_iff_left below, Option.some.injEq]
        exact ⟨fun h => h ▸ rfl, fun h => (congrArg Prod.snd h).symm⟩
      · have apart : (key, value) ≠ e := fun h => same (h ▸ rfl)
        rw [List.find?_cons_of_neg (by simpa using same), ih rest, List.mem_cons,
          or_iff_right apart]

/-- A value is found under a key exactly where there is an entry of both. -/
theorem get?_eq_some_iff (c : Catalog α) {key : String} {value : α} :
    c.get? key = some value ↔ (key, value) ∈ c.entries :=
  find?_eq_some_iff c.ordered

/-- Catalogs that hold the same under every key are the same. -/
theorem eq_of_get?_eq {a b : Catalog α} (same : ∀ key, a.get? key = b.get? key) : a = b := by
  have nodup (c : Catalog α) : c.entries.Nodup :=
    c.ordered.imp fun {d e} below (h : d = e) => String.lt_irrefl e.1 (h ▸ below)
  have perm : a.entries.Perm b.entries :=
    (List.perm_ext_iff_of_nodup (nodup a) (nodup b)).mpr fun e => by
      rw [← get?_eq_some_iff, ← get?_eq_some_iff, same]
  refine eq_of_entries_eq (perm.eq_of_pairwise (fun d e _ _ above below => ?_) a.ordered b.ordered)
  exact absurd below (String.lt_asymm above)

end Catalog

/-! ## Names -/

namespace Bug

theorem nameOf_injective {a b : UInt64} (h : nameOf a = nameOf b) : a = b := by
  have digits := congrArg String.toList h
  rw [nameOf, nameOf, Text.decimal, Text.decimal, String.toList_ofList,
    String.toList_ofList] at digits
  have value := congrArg (fun ds => Nat.ofDigitChars 10 ds 0) digits
  simp only [Nat.ofDigitChars_ten_toDigits] at value
  exact UInt64.toNat_inj.mp value

end Bug

/-! ## Newer copies -/

namespace Bug

/-- What is kept once a copy is reported: the copy, unless the one that was kept is newer. -/
def orNewer (b : Bug) : Option Bug → Bug
  | some kept => if b.lastChange < kept.lastChange then kept else b
  | none => b

variable {b c : Bug}

theorem orNewer_of_lt (h : b.lastChange < c.lastChange) : b.orNewer (some c) = c := if_pos h

theorem orNewer_of_le (h : c.lastChange ≤ b.lastChange) : b.orNewer (some c) = b :=
  if_neg (not_lt.mpr h)

theorem le_orNewer (b : Bug) (kept : Option Bug) : b.lastChange ≤ (b.orNewer kept).lastChange := by
  cases kept with
  | none => exact le_refl _
  | some c =>
      rcases lt_or_ge b.lastChange c.lastChange with later | earlier
      · rw [orNewer_of_lt later]
        exact later.le
      · rw [orNewer_of_le earlier]

theorem le_orNewer_some (b c : Bug) : c.lastChange ≤ (b.orNewer (some c)).lastChange := by
  rcases lt_or_ge b.lastChange c.lastChange with later | earlier
  · rw [orNewer_of_lt later]
  · rw [orNewer_of_le earlier]
    exact earlier

/-- What is kept is the copy that is reported, or what was kept before. -/
theorem orNewer_eq_or (b : Bug) (kept : Option Bug) :
    b.orNewer kept = b ∨ kept = some (b.orNewer kept) := by
  cases kept with
  | none => exact .inl rfl
  | some c =>
      rcases lt_or_ge b.lastChange c.lastChange with later | earlier
      · exact .inr (congrArg some (orNewer_of_lt later).symm)
      · exact .inl (orNewer_of_le earlier)

end Bug

/-! ## Stores -/

namespace Store

variable {s : Store} {name : String} {b : Bug}

/-- Stores in which the same is found under every name are the same. -/
theorem eq_of_get?_eq {s t : Store} (same : ∀ name, s.get? name = t.get? name) : s = t :=
  congrArg Store.mk (Catalog.eq_of_get?_eq same)

@[simp] theorem get?_put_self (s : Store) (b : Bug) : (s.put b).get? b.name = some b :=
  Catalog.get?_insert_self s.bugs b.name b

theorem get?_put_of_ne (s : Store) {b : Bug} (h : name ≠ b.name) :
    (s.put b).get? name = s.get? name :=
  Catalog.get?_insert_of_ne s.bugs h b

/-- A copy found after another was put there was found before, or is the other. -/
theorem get?_put {kept : Bug} (found : (s.put b).get? name = some kept) :
    s.get? name = some kept ∨ (kept = b ∧ name = b.name) := by
  by_cases same : name = b.name
  · subst same
    rw [get?_put_self] at found
    exact .inr ⟨(Option.some.inj found).symm, rfl⟩
  · rw [get?_put_of_ne s same] at found
    exact .inl found

/-! ### Events -/

theorem accepts_iff :
    s.accepts b = true ↔ ∀ kept, s.get? b.name = some kept → kept.lastChange ≤ b.lastChange := by
  rw [accepts]
  cases s.get? b.name with
  | none => simp
  | some kept => simp

/-- An event about a bug puts it in place of a copy that did not change later. -/
theorem apply_eq (s : Store) {event : WatchEvent} (about : event.bug? = some b) :
    (s.apply event).1 = if s.accepts b then s.put b else s := by
  simp only [apply, about]
  split <;> rfl

/-- An event about a fault changes nothing. -/
theorem apply_eq_self (s : Store) {event : WatchEvent} (about : event.bug? = none) :
    (s.apply event).1 = s := by
  simp only [apply, about]

/-- Under the name of the copy that it reports an event keeps this copy or a newer one. -/
theorem get?_apply_self (s : Store) {event : WatchEvent} (about : event.bug? = some b) :
    (s.apply event).1.get? b.name = some (b.orNewer (s.get? b.name)) := by
  rw [apply_eq s about]
  by_cases taken : s.accepts b = true
  · rw [if_pos taken, get?_put_self]
    cases found : s.get? b.name with
    | none => rfl
    | some kept => rw [Bug.orNewer_of_le (accepts_iff.mp taken kept found)]
  · rw [if_neg taken]
    cases found : s.get? b.name with
    | none => simp [accepts, found] at taken
    | some kept => rw [Bug.orNewer_of_lt (by simpa [accepts, found] using taken)]

theorem get?_apply_of_ne (s : Store) {event : WatchEvent} (about : event.bug? = some b)
    (apart : name ≠ b.name) : (s.apply event).1.get? name = s.get? name := by
  rw [apply_eq s about]
  split
  · exact get?_put_of_ne s apart
  · rfl

/-- A copy found after an event was found before, or is the one that the event reports. -/
theorem get?_apply {event : WatchEvent} {kept : Bug}
    (found : (s.apply event).1.get? name = some kept) :
    s.get? name = some kept ∨ (event.bug? = some kept ∧ name = kept.name) := by
  cases about : event.bug? with
  | none =>
      rw [apply_eq_self s about] at found
      exact .inl found
  | some b =>
      by_cases same : name = b.name
      · subst same
        rw [get?_apply_self s about] at found
        rcases b.orNewer_eq_or (s.get? b.name) with new | old
        · rw [new] at found
          cases found
          exact .inr ⟨rfl, rfl⟩
        · exact .inl (old.trans found)
      · rw [get?_apply_of_ne s about same] at found
        exact .inl found

/-- An event leaves a copy of the bug that it reports, or a newer one. -/
theorem exists_get?_apply (s : Store) {event : WatchEvent} (about : event.bug? = some b) :
    ∃ kept, (s.apply event).1.get? b.name = some kept ∧ b.lastChange ≤ kept.lastChange :=
  ⟨_, get?_apply_self s about, b.le_orNewer _⟩

/-- A copy gives way only to one that did not change earlier. -/
theorem exists_le_get?_apply {kept : Bug} (found : s.get? name = some kept) (event : WatchEvent) :
    ∃ later, (s.apply event).1.get? name = some later ∧ kept.lastChange ≤ later.lastChange := by
  cases about : event.bug? with
  | none =>
      rw [apply_eq_self s about]
      exact ⟨kept, found, le_refl _⟩
  | some b =>
      by_cases same : name = b.name
      · subst same
        refine ⟨_, get?_apply_self s about, ?_⟩
        rw [found]
        exact b.le_orNewer_some kept
      · exact ⟨kept, (get?_apply_of_ne s about same).trans found, le_refl _⟩

/-- The store after all of some events have been taken over. -/
def applyAll (s : Store) (events : List WatchEvent) : Store :=
  events.foldl (fun s event => (s.apply event).1) s

@[simp] theorem applyAll_append (s : Store) (events : List WatchEvent) (event : WatchEvent) :
    s.applyAll (events ++ [event]) = ((s.applyAll events).apply event).1 := by
  simp only [applyAll, List.foldl_append, List.foldl_cons, List.foldl_nil]

/-- A copy found after some events was found before, or one of the events reports it. -/
theorem get?_applyAll {events : List WatchEvent} {kept : Bug}
    (found : (s.applyAll events).get? name = some kept) :
    s.get? name = some kept ∨ ∃ event ∈ events, event.bug? = some kept := by
  induction events generalizing s with
  | nil => exact .inl found
  | cons event events ih =>
      rcases ih found with before | ⟨e, member, about⟩
      · rcases get?_apply before with before | ⟨about, _⟩
        · exact .inl before
        · exact .inr ⟨event, List.mem_cons_self, about⟩
      · exact .inr ⟨e, List.mem_cons_of_mem _ member, about⟩

/-! ### Lists -/

/-- A copy found after some others were put there was found before, or is one of them. -/
theorem get?_foldl_put {items : List Bug} {kept : Bug}
    (found : (items.foldl put s).get? name = some kept) :
    s.get? name = some kept ∨ (kept ∈ items ∧ name = kept.name) := by
  induction items generalizing s with
  | nil => exact .inl found
  | cons b items ih =>
      rcases ih found with found | ⟨member, same⟩
      · rcases get?_put found with found | ⟨rfl, same⟩
        · exact .inl found
        · exact .inr ⟨List.mem_cons_self, same⟩
      · exact .inr ⟨List.mem_cons_of_mem _ member, same⟩

/-- A copy stays where no other one of its name is put. -/
theorem get?_foldl_put_of_ne {items : List Bug} (h : ∀ c ∈ items, name ≠ c.name) :
    (items.foldl put s).get? name = s.get? name := by
  induction items generalizing s with
  | nil => rfl
  | cons c items ih =>
      rw [List.foldl_cons, ih fun d member => h d (List.mem_cons_of_mem _ member)]
      exact get?_put_of_ne s (h c List.mem_cons_self)

theorem mem_of_get?_replace {items : List Bug} {kept : Bug}
    (found : (replace items).get? name = some kept) : kept ∈ items ∧ name = kept.name := by
  rcases get?_foldl_put found with found | inside
  · cases found
  · exact inside

theorem get?_foldl_put_of_mem {items : List Bug}
    (distinct : items.Pairwise fun a b => a.name ≠ b.name) (member : b ∈ items) :
    (items.foldl put s).get? b.name = some b := by
  induction items generalizing s with
  | nil => cases member
  | cons c items ih =>
      obtain ⟨first, rest⟩ := List.pairwise_cons.mp distinct
      rw [List.foldl_cons]
      rcases List.mem_cons.mp member with rfl | member
      · rw [get?_foldl_put_of_ne fun d inside => first d inside]
        exact get?_put_self s b
      · exact ih rest member

/-- A store that replaces its contents by copies of distinct names holds all of these. -/
theorem get?_replace {items : List Bug} (distinct : items.Pairwise fun a b => a.name ≠ b.name)
    (member : b ∈ items) : (replace items).get? b.name = some b :=
  get?_foldl_put_of_mem distinct member

theorem get?_foldl_put_eq_or (s : Store) (items : List Bug) (name : String) :
    (items.foldl put s).get? name =
      ((items.filter fun b => b.name = name).getLast?).or (s.get? name) := by
  induction items generalizing s with
  | nil => rfl
  | cons c items ih =>
      rw [List.foldl_cons, ih]
      by_cases same : c.name = name
      · have kept : (s.put c).get? name = some c := same ▸ get?_put_self s c
        rw [List.filter_cons_of_pos (by simpa using same), List.getLast?_cons, kept]
        cases (items.filter fun b => b.name = name).getLast? <;> rfl
      · rw [List.filter_cons_of_neg (by simpa using same), get?_put_of_ne s (Ne.symm same)]

/-- **A store that replaces its contents holds under each name the last of the new copies of this
name**, and nothing under a name that none of them has. -/
theorem get?_replace_eq_getLast? (items : List Bug) (name : String) :
    (replace items).get? name = (items.filter fun b => b.name = name).getLast? :=
  (get?_foldl_put_eq_or empty items name).trans (Option.or_none ..)

end Store

end BugFeed
