import BugFeed.Fault
import BugFeed.Search
import BugFeed.Time.Wait

/-!
# A scripted service

A service that answers searches from a script: the replies are used in the order in which searches
begin, whoever begins them, and after the last one every search finds nothing. A reply is used up
by the beginning of a search, even if nobody waits for its answer to the end.
-/

namespace BugFeed

set_option autoImplicit false

/-- What comes of one search, and after how many milliseconds. -/
structure Reply where
  answer : Except TransportFault SearchResponse
  delay : Nat := 0

/-- A search that was begun. -/
structure Call where
  time : Nat
  args : SearchArgs
  deriving DecidableEq, Repr

/-- The answer to a search that was begun, and when it comes. -/
structure Ticket where
  due : Nat
  answer : Except TransportFault SearchResponse

/-- A service: the replies that it has left, the searches that were begun, last one first, and how
many of them were waited for to their end. -/
structure Service where
  replies : List Reply
  calls : List Call := []
  finished : Nat := 0

namespace Service

def nextReply (s : Service) : Reply := s.replies.head?.getD { answer := .ok ⟨[]⟩ }

/-- Begins a search. -/
def begin (s : Service) (now : Nat) (args : SearchArgs) : Ticket × Service :=
  (⟨waitEnd now s.nextReply.delay, s.nextReply.answer⟩,
    { s with replies := s.replies.tail, calls := ⟨now, args⟩ :: s.calls })

def finish (s : Service) : Service := { s with finished := s.finished + 1 }

/-- How much the script has to say: its replies and the bugs in them. -/
def size (s : Service) : Nat :=
  s.replies.foldr (fun r n =>
    match r.answer with
    | .ok response => response.bugs.length + 1 + n
    | .error _ => 1 + n) 0

end Service

end BugFeed
