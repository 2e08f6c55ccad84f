import BugFeed.Informer

/-!
# Parties

Those who search: someone who asks a feed for one list, a watch session, an informer. They move by
themselves, one move at a time, begin searches, and wait for answers.
-/

namespace BugFeed

set_option autoImplicit false

/-! ## One list -/

/-- How far someone who asks for one list has come. -/
inductive ListPhase where
  /-- The search has not begun. -/
  | idle
  /-- It waits for the answer. -/
  | searching
  /-- It has the result. -/
  | done (result : Except Fault BugList)

/-- Someone who asks a feed for one list. -/
structure ListCall where
  feed : Feed
  options : ListOptions
  anchor : ResourceVersion
  phase : ListPhase := .idle

namespace ListCall

/-- Asks for a list. The options may hold a token that is none. -/
def start (feed : Feed) (options : ListOptions) (present : Instant) : Except TokenFault ListCall :=
  (Feed.anchor options present).map fun anchor => { feed, options, anchor }

/-- Begins the search. -/
def move? (c : ListCall) : Option (ListCall × Option SearchArgs) :=
  match c.phase with
  | .idle => some ({ c with phase := .searching }, some (c.feed.argsFor c.options))
  | .searching | .done _ => none

def answer (c : ListCall) (response : Except TransportFault SearchResponse) : ListCall :=
  { c with phase := .done (c.feed.listOf c.anchor response) }

def isSearching (c : ListCall) : Bool :=
  match c.phase with
  | .searching => true
  | .idle | .done _ => false

/-- The list, or why there is none, once that is known. -/
def result? (c : ListCall) : Option (Except Fault BugList) :=
  match c.phase with
  | .done result => some result
  | .idle | .searching => none

end ListCall

/-! ## Any of them -/

/-- Someone who searches. -/
inductive Party where
  | list (call : ListCall)
  | session (session : Session)
  | informer (informer : Informer)

namespace Party

/-- The next move, and the search that begins with it. -/
def move? (p : Party) (now : Nat) (present : Instant) : Option (Party × Option SearchArgs) :=
  match p with
  | .list c => c.move?.map fun (c, args) => (.list c, args)
  | .session s => (s.move? now).map fun (s, args) => (.session s, args)
  | .informer i => (i.move? now present).map fun (i, args) => (.informer i, args)

def answer (p : Party) (now : Nat) (present : Instant)
    (response : Except TransportFault SearchResponse) : Party :=
  match p with
  | .list c => .list (c.answer response)
  | .session s => .session (s.answer now response)
  | .informer i => .informer (i.answer now present response)

/-- Whether it looks at an answer that comes at a time. -/
def listens (p : Party) (now : Nat) : Bool :=
  match p with
  | .list _ => true
  | .session s => s.listens now
  | .informer i => i.listens now

/-- Whether it waits for the answer to a search. -/
def isSearching : Party → Bool
  | .list c => c.isSearching
  | .session s => s.isSearching
  | .informer i => i.isSearching

/-- The next times at which it moves if nothing happens to it before. -/
def wakeTimes : Party → List Nat
  | .list _ => []
  | .session s => s.wakeTimes
  | .informer i => i.wakeTimes

def counted : Party → Ledger
  | .list _ => []
  | .session s => s.ledger
  | .informer i => i.counted

end Party

end BugFeed
