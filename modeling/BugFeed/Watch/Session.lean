import BugFeed.Metrics
import BugFeed.Search
import BugFeed.Text.Record
import BugFeed.Time.Wait
import BugFeed.Watch.StopSignal

/-!
# Watch sessions

A search can only say which bugs changed since some second. A session turns repeated searches into
an ordered stream of events: it waits until its interval has passed since its watermark, searches
for what changed since, hands the changes over in the order of their times, moves the watermark to
the latest change it was told of, waits for the interval again, and so on, until it is stopped.

The session is a machine. `expire?` and `proceed?` are the moves that it makes by itself at a
given time; `answer`, `take?`, `stop`, `close` and `drop` are what happens to it from outside. All
its moves and all that happens to it are noted in its log. A move that depends on the signal looks
at it and acts at once, as when all goes on on one thread; `Task` has something happen in between.

* Events wait in a queue of bounded length. A session whose queue is full waits for room: a slow
  consumer delays it and loses nothing.
* A stop cuts the changes of one search only between two seconds: an event tells the consumer
  that its whole second has been seen, so a second that was begun is handed over to its end even
  if the session has been stopped.
* The last event of a session is the fault that ended it, if any: the end of its lifetime or a
  failed search. A session that someone stopped ends without one.
-/

namespace BugFeed

set_option autoImplicit false

/-! ## What a session is told at its start -/

/-- What a session does: what it searches for, which bugs it shows, and the second from which it
watches. Times are in milliseconds. -/
structure WatchPlan where
  args : SearchArgs
  includes : BugInfo → Bool
  interval : Nat
  lifetime : Nat
  capacity : Nat
  start : ResourceVersion

namespace WatchPlan

/-- The search for what changed since a version. -/
def searchSince (plan : WatchPlan) (cutoff : ResourceVersion) : SearchArgs :=
  { plan.args with changedSince := some cutoff.time }

/-- Whether one change is handed over before another: the earlier first, and the lower id of two
at the same time. -/
def before (a b : Bug) : Bool :=
  a.lastChange < b.lastChange || (a.lastChange = b.lastChange && a.id ≤ b.id)

/-- The changes in an answer that are to be shown, in the order in which they are handed over,
without those that an earlier search has covered. -/
def batch (plan : WatchPlan) (cutoff : ResourceVersion) (response : SearchResponse) : List Bug :=
  (((response.bugs.filter plan.includes).map Bug.ofInfo).mergeSort before).filter fun b =>
    cutoff.time ≤ b.lastChange

/-- The event of a change: a bug created since the session began is new. -/
def eventOf (plan : WatchPlan) (b : Bug) : WatchEvent :=
  if plan.start.time ≤ b.created then .added b else .modified b

/-- Milliseconds until the first search: until the interval has passed since the first second
that is watched, and the interval itself if no time can be given for that. -/
def firstDelay (plan : WatchPlan) (present : Instant) : Nat :=
  match plan.start.add? (.ofMillis plan.interval) with
  | some t => (t.nanosFrom present + 999999) / 1000000
  | none => plan.interval

/-- The delay before the first search, where the difference of dates may have no result. -/
def firstDelay? (plan : WatchPlan) (present : Instant) : Option Nat :=
  (plan.start.add? (.ofMillis plan.interval)).elim (some plan.interval) fun t =>
    (t.time.since? present).map fun nanos => (nanos.toNat + 999999) / 1000000

end WatchPlan

/-! ## States -/

/-- What a session is doing. -/
inductive Phase where
  /-- It waits until a time. -/
  | pausing (wake : Nat)
  /-- It waits for the answer to a search. -/
  | searching
  /-- It hands changes over. The last one handed over was in the second `last`, and the watermark
  moves to `next` once all are. -/
  | delivering (rest : List Bug) (last : Option Instant) (next : ResourceVersion)
  /-- It hands the fault over that ends it. -/
  | closing (status : Status)
  /-- It has ended. -/
  | ended
  deriving DecidableEq, Repr

/-- Something that a session did or that happened to it. -/
inductive Note where
  /-- It began a search with this cutoff. -/
  | asked (cutoff : ResourceVersion)
  /-- It was given the answer to its search. -/
  | answered (response : Except TransportFault SearchResponse)
  /-- It handed an event over. -/
  | delivered (event : WatchEvent)
  /-- A poll ended. -/
  | polled (outcome : PollOutcome)
  /-- Its signal fired. -/
  | fired (reason : StopReason)
  /-- Its consumer took an event. -/
  | taken (event : WatchEvent)
  /-- It ended. -/
  | ended

/-- A session: its plan, when it was opened and when its first pause ends, what it is doing, its
watermark, the signal that stops it, the events that wait for its consumer, whether the consumer
still accepts events, what it counted, and the log of all that happened with the times, last one
first. -/
structure Session where
  plan : WatchPlan
  openedAt : Nat
  firstWake : Nat
  phase : Phase
  watermark : ResourceVersion
  signal : StopSignal
  queue : List WatchEvent
  attached : Bool
  ledger : Ledger
  log : List (Nat × Note)

namespace Session

/-- Opens a session. -/
def start (now : Nat) (present : Instant) (plan : WatchPlan) : Session where
  plan := plan
  openedAt := now
  firstWake := waitEnd now (plan.firstDelay present)
  phase := .pausing (waitEnd now (plan.firstDelay present))
  watermark := plan.start
  signal := {}
  queue := []
  attached := true
  ledger := Ledger.record [] .sessionStarted
  log := []

/-- Whether the session waits for the answer to a search. -/
def isSearching (s : Session) : Bool := s.phase = .searching

def hasEnded (s : Session) : Bool := s.phase = .ended

/-- Whether the consumer will get no more events than wait for it now. -/
def isClosed (s : Session) : Bool := s.hasEnded || !s.attached

/-- The time at which the lifetime of the session ends. -/
def deadline (s : Session) : Nat := waitEnd s.openedAt s.plan.lifetime

/-- Whether the first pause ends with the lifetime. Of two waits that end at one time the one that
began first comes first: the first pause begins before the lifetime does, all others after it. -/
def wakesAtEnd (s : Session) : Bool := s.firstWake = s.deadline

/-! ## Parts of moves -/

def note (s : Session) (now : Nat) (n : Note) : Session := { s with log := (now, n) :: s.log }

def count (s : Session) (o : Occurrence) : Session := { s with ledger := s.ledger.record o }

/-- Fires the signal of the session. A signal that has fired keeps its reason. -/
def fire (s : Session) (now : Nat) (reason : StopReason) : Session :=
  if s.signal.isStopped then s
  else { s with signal := s.signal.fire reason }.note now (.fired reason)

def finish (s : Session) (now : Nat) : Session := { s with phase := .ended }.note now .ended

/-- Leaves the work because the signal has fired. Only the end of the lifetime is told to the
consumer. -/
def leave (s : Session) (now : Nat) : Session :=
  if s.signal.reason = some .expired then
    { s with phase := .closing (.expired (.ofMillis s.plan.lifetime)) }.count .sessionExpired
  else s.finish now

/-- Waits for the interval before the next search. -/
def pause (s : Session) (now : Nat) : Session :=
  { s with phase := .pausing (waitEnd now s.plan.interval) }

/-- Ends a poll. -/
def conclude (s : Session) (now : Nat) (outcome : PollOutcome) : Session :=
  (s.count (.polled outcome)).note now (.polled outcome)

def hasRoom (s : Session) : Bool := s.queue.length < s.plan.capacity

/-- Puts an event into the queue. -/
def push (s : Session) (now : Nat) (event : WatchEvent) : Session :=
  ({ s with queue := s.queue ++ [event] }.count (.delivered event.kind)).note now (.delivered event)

/-! ## Moves of the session -/

/-- The end of the lifetime. -/
def expire? (s : Session) (now : Nat) : Option Session :=
  if s.signal.isStopped ∨ now < s.deadline then none else some (s.fire now .expired)

/-- Begins a search. -/
def ask (s : Session) (now : Nat) : Session :=
  { s with phase := .searching }.note now (.asked s.watermark)

/-- Hands over a change, if there is room for it or nobody accepts it. -/
def handOver? (s : Session) (now : Nat) (b : Bug) (rest : List Bug) (next : ResourceVersion) :
    Option Session :=
  if !s.attached then some ((s.fire now .finished).finish now)
  else if s.hasRoom then
    some ({ s with phase := .delivering rest (some b.lastChange.truncate) next }.push now
      (s.plan.eventOf b))
  else none

/-- Hands over the next change, if there is room for it or it no longer matters. A change that
begins a new second is not handed over once the session has been stopped. -/
def deliver? (s : Session) (now : Nat) (b : Bug) (rest : List Bug) (last : Option Instant)
    (next : ResourceVersion) : Option Session :=
  if last ≠ some b.lastChange.truncate ∧ s.signal.isStopped then some (s.leave now)
  else s.handOver? now b rest next

/-- The next step of the session's work, and the search that it begins with it. There is none
while the session waits for something. -/
def proceed? (s : Session) (now : Nat) : Option (Session × Option SearchArgs) :=
  match s.phase with
  | .pausing wake =>
    if s.signal.isStopped then some (s.leave now, none)
    else if wake ≤ now then some (s.ask now, some (s.plan.searchSince s.watermark))
    else none
  | .searching => if s.signal.isStopped then some (s.leave now, none) else none
  | .delivering [] _ next =>
    some (({ s with watermark := next }.conclude now .ok).pause now, none)
  | .delivering (b :: rest) last next => (s.deliver? now b rest last next).map fun s => (s, none)
  | .closing status =>
    if !s.attached then some (s.finish now, none)
    else if s.hasRoom then some ((s.push now (.error status)).finish now, none)
    else none
  | .ended => none

/-- The next move of the session. The end of its lifetime comes before its work, unless its first
pause ends at that time. -/
def move? (s : Session) (now : Nat) : Option (Session × Option SearchArgs) :=
  let expired := (s.expire? now).map fun s => (s, none)
  if s.wakesAtEnd then (s.proceed? now).or expired else expired.or (s.proceed? now)

/-- The next time at which the session moves if nothing happens to it before. -/
def wakeTimes (s : Session) : List Nat :=
  (if s.signal.isStopped then [] else [s.deadline]) ++
    match s.phase with
    | .pausing wake => [wake]
    | _ => []

/-! ## What happens to the session -/

/-- Whether the session looks at an answer that comes at a time: it does not once it has been
stopped, nor at the end of its lifetime, unless its first pause ends at that time. -/
def listens (s : Session) (now : Nat) : Bool :=
  !s.signal.isStopped && (s.wakesAtEnd || now < s.deadline)

/-- Looks at the answer to the search: the poll ends, or its batch is to be handed over. A signal
that has fired in the meantime keeps its reason. -/
def pickUp (s : Session) (now : Nat) (response : Except TransportFault SearchResponse) : Session :=
  let s := s.note now (.answered response)
  match response with
  | .error fault =>
    { (s.conclude now .error).fire now .failed with phase := .closing (.internalError fault) }
  | .ok found =>
    match found.latestChange? with
    | none => (s.conclude now .empty).pause now
    | some next =>
      if next.isAfter s.watermark then
        { s with phase := .delivering (s.plan.batch s.watermark found) none next }
      else (s.conclude now .skipped).pause now

/-- Gives the session the answer to its search. An answer that finds the session stopped is not
looked at. -/
def answer (s : Session) (now : Nat) (response : Except TransportFault SearchResponse) : Session :=
  if s.phase ≠ .searching then s
  else if s.signal.isStopped then s.leave now
  else s.pickUp now response

/-- The consumer takes the next event. -/
def take? (s : Session) (now : Nat) : Option (WatchEvent × Session) :=
  match s.queue with
  | [] => none
  | event :: queue => some (event, { s with queue := queue }.note now (.taken event))

def stop (s : Session) (now : Nat) : Session := s.fire now .requested

/-- The consumer accepts no further events. -/
def close (s : Session) : Session := { s with attached := false }

/-- The consumer goes away, with the events that wait for it. -/
def drop (s : Session) (now : Nat) : Session := { s.close with queue := [] }.stop now

/-- The longest queue that a session can have. -/
def longestQueue : Nat := (UInt64.size - 1) / 8

/-- The length of the name that a session is given at random. -/
def nameLength : Nat := 10

/-- The session under a name in words. -/
def describe (s : Session) (name : String) : String :=
  Text.describeRecord "PeriodicWatcher" [
    ("session_id", Text.quoted name),
    ("stopped", Text.describeTruth s.signal.isStopped)]

end Session

end BugFeed
