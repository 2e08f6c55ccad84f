import BugFeed.Number.Binary64

/-!
# Trees of settings

What a source of settings says, before it is known which settings there are: scalars, lists, and
tables of keys. Every node carries a mark, which says where it comes from or how it was written.
-/

namespace BugFeed.Settings

set_option autoImplicit false

/-- A single value. -/
inductive Scalar where
  /-- A place that was made for other values and holds none. -/
  | blank
  | truth (b : Bool)
  | integer (n : Int)
  | float (x : Binary64)
  | text (s : String)
  deriving DecidableEq, Repr

mutual

/-- A tree of settings whose nodes carry marks. -/
inductive Setting (μ : Type) where
  | leaf (mark : μ) (value : Scalar)
  | list (mark : μ) (items : Items μ)
  | table (mark : μ) (entries : Entries μ)

/-- The items of a list. -/
inductive Items (μ : Type) where
  | done
  | more (head : Setting μ) (tail : Items μ)

/-- The entries of a table. -/
inductive Entries (μ : Type) where
  | done
  | more (key : String) (value : Setting μ) (tail : Entries μ)

end

instance {μ : Type} [Inhabited μ] : Inhabited (Setting μ) := ⟨.leaf default .blank⟩

variable {μ : Type}

/-! ## Tables -/

namespace Entries

def get? (key : String) : Entries μ → Option (Setting μ)
  | .done => none
  | .more k v tail => if key = k then some v else tail.get? key

/-- Puts a tree under a key, in place of what was there. -/
def set (key : String) (value : Setting μ) : Entries μ → Entries μ
  | .done => .more key value .done
  | .more k v tail => if key = k then .more k value tail else .more k v (tail.set key value)

/-- The entries without the one under a key. -/
def erase (key : String) : Entries μ → Entries μ
  | .done => .done
  | .more k v tail => if key = k then tail else .more k v (tail.erase key)

/-- What was put under a key stands there, and all else is as it was. -/
theorem get?_set (key k : String) (value : Setting μ) :
    ∀ es : Entries μ, (es.set key value).get? k = if k = key then some value else es.get? k
  | .done => by simp [set, get?]
  | .more j v tail => by
    have ih := get?_set key k value tail
    by_cases h : key = j
    · subst h
      by_cases h' : k = key <;> simp [set, get?, h']
    · by_cases h' : k = j
      · have hk : k ≠ key := fun e => h (e ▸ h')
        subst h'
        simp [set, get?, h, hk]
      · simp [set, get?, h, h', ih]

end Entries

/-! ## Lists -/

namespace Items

/-- The items of a list of trees. -/
def ofList (vs : List (Setting μ)) : Items μ := vs.foldr .more .done

/-- The trees of a list after some that came before it, last one first. -/
def toListFrom (before : List (Setting μ)) : Items μ → List (Setting μ)
  | .done => before.reverse
  | .more head tail => tail.toListFrom (head :: before)

/-- The trees of a list. -/
def toList (items : Items μ) : List (Setting μ) := items.toListFrom []

/-- The number of items. -/
def length (items : Items μ) : Nat := items.toList.length

def get? : Items μ → Nat → Option (Setting μ)
  | .done, _ => none
  | .more head _, 0 => some head
  | .more _ tail, place + 1 => tail.get? place

/-- Puts an item at a place. Blank items fill the list up to there if it is shorter. -/
def put (blank : Setting μ) (place : Nat) (v : Setting μ) (items : Items μ) : Items μ :=
  let vs := items.toList
  ofList ((vs ++ List.replicate (place + 1 - vs.length) blank).set place v)

/-- Adds an item at the end. -/
def push (v : Setting μ) : Items μ → Items μ
  | .done => .more v .done
  | .more head tail => .more head (tail.push v)

/-- Changes the last item, if there is one and it can be changed. -/
def alterLast? (f : Setting μ → Option (Setting μ)) : Items μ → Option (Items μ)
  | .done => none
  | .more head .done => (f head).map fun v => .more v .done
  | .more head tail => (tail.alterLast? f).map fun tail => .more head tail

end Items

/-! ## Marks -/

mutual

/-- The tree with one mark on all its nodes. -/
def Setting.marked {ν : Type} (mark : ν) : Setting μ → Setting ν
  | .leaf _ value => .leaf mark value
  | .list _ items => .list mark (items.marked mark)
  | .table _ entries => .table mark (entries.marked mark)

/-- The items with one mark on all their nodes. -/
def Items.marked {ν : Type} (mark : ν) : Items μ → Items ν
  | .done => .done
  | .more head tail => .more (head.marked mark) (tail.marked mark)

/-- The entries with one mark on all their nodes. -/
def Entries.marked {ν : Type} (mark : ν) : Entries μ → Entries ν
  | .done => .done
  | .more key value tail => .more key (value.marked mark) (tail.marked mark)

end

end BugFeed.Settings
