import BugFeed.Bug
import BugFeed.Fault

/-!
# Watch events

A watch reports the first sight of a bug, later changes, and at most one fault, which ends it. A
watch that reached the end of its lifetime is resumed from the last version that its consumer
saw; after any other fault the consumer lists anew.
-/

namespace BugFeed

set_option autoImplicit false

/-- Why a watch ended. -/
inductive StatusReason where
  /-- It reached the end of its lifetime. -/
  | expired
  /-- Its search failed. -/
  | internalError
  deriving DecidableEq, Repr

/-- What a watch that ended says about it. -/
structure Status where
  reason : StatusReason
  code : UInt16
  message : String
  deriving DecidableEq, Repr

namespace Status

/-- The status of a watch that reached the end of its lifetime. -/
def expired (lifetime : Span) : Status where
  reason := .expired
  code := 410
  message := "watch closed after " ++ lifetime.display ++
    ", resume from the last observed resource version"

/-- The status of a watch whose search failed. -/
def internalError (fault : TransportFault) : Status where
  reason := .internalError
  code := 500
  message := "Internal error occurred: " ++ fault.message

/-- Whether a new watch may go on from the last version that was seen. -/
def isResumable (s : Status) : Bool := s.reason = .expired

end Status

/-- What a watch reports. -/
inductive WatchEvent where
  /-- A bug created since the watch began. -/
  | added (bug : Bug)
  /-- A change to a bug that was there before. -/
  | modified (bug : Bug)
  /-- The fault that ends the watch. -/
  | error (status : Status)
  deriving DecidableEq, Repr

/-- The kinds of watch events. -/
inductive EventKind where
  | added
  | modified
  | error
  deriving DecidableEq, Repr

/-- The word for a kind of events. -/
def EventKind.word : EventKind → String
  | .added => "added"
  | .modified => "modified"
  | .error => "error"

namespace WatchEvent

def kind : WatchEvent → EventKind
  | .added _ => .added
  | .modified _ => .modified
  | .error _ => .error

/-- The bug that an event is about. -/
def bug? : WatchEvent → Option Bug
  | .added b | .modified b => some b
  | .error _ => none

end WatchEvent

end BugFeed
