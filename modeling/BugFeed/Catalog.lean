/-!
# Catalogs

A catalog holds values under text keys, each key once, in ascending order of the keys. The order
makes two catalogs with the same entries the same value, whatever was done to build them.
-/

namespace BugFeed

set_option autoImplicit false

/-- Values under distinct text keys, in ascending order of the keys. -/
structure Catalog (α : Type) where
  entries : List (String × α)
  ordered : entries.Pairwise fun a b => a.1 < b.1

namespace Catalog

variable {α : Type}

def empty : Catalog α := ⟨[], List.Pairwise.nil⟩

instance : Inhabited (Catalog α) := ⟨empty⟩

theorem eq_of_entries_eq {a b : Catalog α} (h : a.entries = b.entries) : a = b := by
  cases a
  cases b
  cases h
  rfl

instance [DecidableEq α] : DecidableEq (Catalog α) := fun a b =>
  decidable_of_iff (a.entries = b.entries) (by cases a; cases b; simp)

/-- Puts a value under a key of a list of entries, in place of what was there. -/
def insertEntry (key : String) (value : α) : List (String × α) → List (String × α)
  | [] => [(key, value)]
  | e :: es =>
    if key < e.1 then (key, value) :: e :: es
    else if key = e.1 then (key, value) :: es
    else e :: insertEntry key value es

/-- The keys after an insertion are the new one and the old ones. -/
theorem key_of_mem_insertEntry {key : String} {value : α} {es : List (String × α)}
    {e : String × α} (h : e ∈ insertEntry key value es) : e.1 = key ∨ e ∈ es := by
  induction es with
  | nil => simp_all [insertEntry]
  | cons d es ih =>
    simp only [insertEntry] at h
    split at h
    · simp only [List.mem_cons] at h ⊢
      rcases h with rfl | h
      · exact .inl rfl
      · exact .inr h
    · split at h
      · simp only [List.mem_cons] at h ⊢
        rcases h with rfl | h
        · exact .inl rfl
        · exact .inr (.inr h)
      · simp only [List.mem_cons] at h ⊢
        rcases h with rfl | h
        · exact .inr (.inl rfl)
        · exact (ih h).imp_right .inr

/-- Insertion keeps the keys in ascending order. -/
theorem pairwise_insertEntry (key : String) (value : α) {es : List (String × α)}
    (h : es.Pairwise fun a b => a.1 < b.1) :
    (insertEntry key value es).Pairwise fun a b => a.1 < b.1 := by
  induction es with
  | nil => simp [insertEntry]
  | cons e es ih =>
    obtain ⟨he, hes⟩ := List.pairwise_cons.1 h
    simp only [insertEntry]
    split
    · rename_i hlt
      refine List.pairwise_cons.2 ⟨?_, h⟩
      intro d hd
      rcases List.mem_cons.1 hd with rfl | hd
      · exact hlt
      · exact String.lt_trans hlt (he d hd)
    · split
      · rename_i heq
        exact List.pairwise_cons.2 ⟨fun d hd => heq ▸ he d hd, hes⟩
      · rename_i hnlt hne
        refine List.pairwise_cons.2 ⟨?_, ih hes⟩
        intro d hd
        rcases key_of_mem_insertEntry hd with hd | hd
        · rw [hd]
          exact Decidable.byContradiction fun hge =>
            hne (String.le_antisymm (String.not_lt.1 hge) (String.not_lt.1 hnlt))
        · exact he d hd

/-- Puts a value under a key, in place of what was there. -/
def insert (c : Catalog α) (key : String) (value : α) : Catalog α :=
  ⟨insertEntry key value c.entries, pairwise_insertEntry key value c.ordered⟩

def get? (c : Catalog α) (key : String) : Option α :=
  (c.entries.find? fun e => e.1 == key).map Prod.snd

/-- The entries whose keys satisfy `p`. -/
def keep (c : Catalog α) (p : String → Bool) : Catalog α :=
  ⟨c.entries.filter fun e => p e.1, c.ordered.sublist List.filter_sublist⟩

/-- The values in ascending order of their keys. -/
def values (c : Catalog α) : List α := c.entries.map Prod.snd

def size (c : Catalog α) : Nat := c.entries.length

def isEmpty (c : Catalog α) : Bool := c.entries.isEmpty

/-- The catalog of a list of entries; of two with one key the later one counts. -/
def ofList (entries : List (String × α)) : Catalog α :=
  entries.foldl (fun c e => c.insert e.1 e.2) empty

end Catalog

end BugFeed
