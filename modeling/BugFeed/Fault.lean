import BugFeed.ResourceVersion

/-!
# Faults

Everything that can go wrong outside the loading of settings, by cause, and the words for it.
-/

namespace BugFeed

set_option autoImplicit false

/-- Why a search gave no answer. -/
inductive TransportFault where
  /-- The request was sent and failed. -/
  | request (text : String)
  /-- No answer came in time. -/
  | timeout (after : Span)
  /-- The service could not be reached. -/
  | unavailable (text : String)
  deriving DecidableEq, Repr

def TransportFault.message : TransportFault → String
  | .request text => "Search request failed: " ++ text
  | .timeout after => "Search request timed out after " ++ after.display
  | .unavailable text => "Search service unavailable: " ++ text

/-- What bugs are called where one is not found. -/
def bugResource : String := "bugs.search.bugzilla.org"

/-- Why an operation failed. -/
inductive Fault where
  /-- A search gave no answer. -/
  | transport (fault : TransportFault)
  /-- A token is no resource version. -/
  | token (fault : TokenFault)
  /-- Settings contradict each other. -/
  | invalidConfig (reason : String)
  /-- No bug of that name is kept. -/
  | notFound (name : String)
  /-- The last attempt of a task took too long. -/
  | retryTimeout (after : Span)
  /-- No attempt of a task was made. -/
  | retryTaskFailed (reason : String)
  deriving DecidableEq, Repr

namespace Fault

def message : Fault → String
  | .transport fault => fault.message
  | .token fault => fault.message
  | .invalidConfig reason => "Invalid config: " ++ reason
  | .notFound name => bugResource ++ " \"" ++ name ++ "\" not found"
  | .retryTimeout after => "Retry timeout after " ++ after.display
  | .retryTaskFailed reason => reason

/-- Whether the fault is that something is not kept. -/
def isNotFound : Fault → Bool
  | .notFound _ => true
  | _ => false

end Fault

end BugFeed
