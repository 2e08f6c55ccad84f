import BugFeed.ResourceVersion

/-!
# Bugs

A bug as the search reports it, and the local copy that is kept of it under its name.
-/

namespace BugFeed

set_option autoImplicit false

/-- A bug as the search reports it. -/
structure BugInfo where
  id : UInt64
  summary : String
  status : String
  resolution : String
  product : String
  component : List String
  severity : String
  priority : String
  assignedTo : String
  created : Instant
  lastChange : Instant
  deriving DecidableEq, Repr

/-- The local copy of a bug, kept under its name. -/
structure Bug where
  name : String
  created : Instant
  version : String
  info : BugInfo
  deriving DecidableEq, Repr

namespace Bug

/-- The name of a bug is its id in decimal. -/
def nameOf (id : UInt64) : String := Text.decimal id.toNat

/-- The copy of a bug: named by its id, its version the token of its last change. -/
def ofInfo (info : BugInfo) : Bug where
  name := nameOf info.id
  created := info.created
  version := (ResourceVersion.mk info.lastChange).display
  info := info

def id (b : Bug) : UInt64 := b.info.id

def lastChange (b : Bug) : Instant := b.info.lastChange

end Bug

end BugFeed
