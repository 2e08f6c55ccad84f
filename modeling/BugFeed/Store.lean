import BugFeed.Catalog
import BugFeed.Watch.Event

/-!
# The store

The local copies of the bugs, each under its name. A watch event replaces the copy it is about
unless that one changed later; an event about a fault changes nothing.
-/

namespace BugFeed

set_option autoImplicit false

/-- The local copies of the bugs, each under its name. -/
structure Store where
  bugs : Catalog Bug
  deriving DecidableEq

namespace Store

def empty : Store := ⟨.empty⟩

instance : Inhabited Store := ⟨empty⟩

def get? (s : Store) (name : String) : Option Bug := s.bugs.get? name

def size (s : Store) : Nat := s.bugs.size

def isEmpty (s : Store) : Bool := s.bugs.isEmpty

/-- Keeps a bug in place of the copy under its name. -/
def put (s : Store) (b : Bug) : Store := ⟨s.bugs.insert b.name b⟩

/-- The store that holds exactly the given bugs; of two with one name the later one counts. -/
def replace (items : List Bug) : Store := items.foldl put empty

/-- Whether a bug may take the place of the copy under its name. -/
def accepts (s : Store) (b : Bug) : Bool :=
  match s.get? b.name with
  | some kept => kept.lastChange ≤ b.lastChange
  | none => true

/-- Takes over what an event reports, and whether that changed the store. -/
def apply (s : Store) (event : WatchEvent) : Store × Bool :=
  match event.bug? with
  | some b => if s.accepts b then (s.put b, true) else (s, false)
  | none => (s, false)

/-- The copy of the bug with an id. -/
def lookup (s : Store) (id : UInt64) : Except Fault Bug :=
  match s.get? (Bug.nameOf id) with
  | some b => .ok b
  | none => .error (.notFound (Bug.nameOf id))

/-- The copies that satisfy a predicate, in ascending order of their ids. -/
def select (s : Store) (p : Bug → Bool) : List Bug :=
  (s.bugs.values.filter p).mergeSort fun a b => a.id ≤ b.id

end Store

end BugFeed
