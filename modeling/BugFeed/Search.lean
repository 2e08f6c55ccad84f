import BugFeed.Bug
import BugFeed.Catalog

/-!
# Searches

What a search asks for and what it answers, and the list made from an answer. The version of a
list is the latest change in the whole answer, shown bugs and hidden ones alike, so that a hidden
change moves the watermark too.
-/

namespace BugFeed

set_option autoImplicit false

/-- The filters of a search. `changedSince` is an inclusive bound at whole seconds. -/
structure SearchArgs where
  ids : List UInt64 := []
  products : List String := []
  components : List String := []
  statuses : List String := []
  quicksearch : Option String := none
  changedSince : Option Instant := none
  deriving DecidableEq, Repr

/-- The answer to a search. -/
structure SearchResponse where
  bugs : List BugInfo
  deriving DecidableEq, Repr

/-- The latest change among some bugs. -/
def latestChange? : List BugInfo → Option Instant
  | [] => none
  | b :: bs =>
    match latestChange? bs with
    | some t => some (b.lastChange.latest t)
    | none => some b.lastChange

/-- The latest change among the bugs of an answer. -/
def SearchResponse.latestChange? (r : SearchResponse) : Option ResourceVersion :=
  (BugFeed.latestChange? r.bugs).map ResourceVersion.mk

/-- What a caller says about a list or a watch: where it starts and hints for the filters. -/
structure ListOptions where
  version : Option String := none
  labels : Catalog String := .empty
  deriving DecidableEq

/-- The options that start at a token. -/
def ListOptions.ofVersion (token : String) : ListOptions := { version := some token }

/-- Some bugs at one time and the version that they reflect. -/
structure BugList where
  version : String
  items : List Bug
  deriving DecidableEq, Repr

namespace BugList

/-- The bugs of an answer that are to be shown, at the latest change of the whole answer, or at
`anchor` if the answer is empty. -/
def ofResponse (response : SearchResponse) (includes : BugInfo → Bool)
    (anchor : ResourceVersion) : BugList where
  version := (response.latestChange?.getD anchor).display
  items := (response.bugs.filter includes).map Bug.ofInfo

def size (l : BugList) : Nat := l.items.length

def isEmpty (l : BugList) : Bool := l.items.isEmpty

end BugList

end BugFeed
