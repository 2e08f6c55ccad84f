import BugFeed.Watch.Event

/-!
# Metrics

What watches and informers count. Each occurrence adds one to one counter: a counter belongs to a
family and, in a family with a label, to one value of the label. A ledger is the list of all
additions so far, and the value of a counter is their sum in 64 bits.
-/

namespace BugFeed

set_option autoImplicit false

/-- How a poll ended. -/
inductive PollOutcome where
  /-- Its changes have been handed over. -/
  | ok
  /-- The search found nothing. -/
  | empty
  /-- The search found nothing later than the watermark. -/
  | skipped
  /-- The search failed. -/
  | error
  deriving DecidableEq, Repr

def PollOutcome.word : PollOutcome → String
  | .ok => "ok"
  | .empty => "empty"
  | .skipped => "skipped"
  | .error => "error"

/-- What an informer does over and over. -/
inductive Cycle where
  | list
  | rewatch
  deriving DecidableEq, Repr

def Cycle.word : Cycle → String
  | .list => "list"
  | .rewatch => "rewatch"

/-- The families of counters. -/
inductive CounterFamily where
  | informerCycles
  | watchEvents
  | watchPolls
  | watchSessionsExpired
  | watchSessionsStarted
  deriving DecidableEq, Repr

namespace CounterFamily

/-- All families, in the order of their names. -/
def all : List CounterFamily :=
  [.informerCycles, .watchEvents, .watchPolls, .watchSessionsExpired, .watchSessionsStarted]

def name : CounterFamily → String
  | .informerCycles => "informer_cycles"
  | .watchEvents => "watch_events"
  | .watchPolls => "watch_polls"
  | .watchSessionsExpired => "watch_sessions_expired"
  | .watchSessionsStarted => "watch_sessions_started"

/-- What a family counts. -/
def help : CounterFamily → String
  | .informerCycles => "Lists and watch resumptions performed by informers"
  | .watchEvents => "Events delivered to watch consumers"
  | .watchPolls => "Delta queries issued by watch sessions"
  | .watchSessionsExpired => "Number of watch sessions closed by the lifetime bound"
  | .watchSessionsStarted => "Number of watch sessions opened"

/-- The label of a family that has one. -/
def label? : CounterFamily → Option String
  | .informerCycles => some "action"
  | .watchEvents => some "event_type"
  | .watchPolls => some "outcome"
  | .watchSessionsExpired | .watchSessionsStarted => none

end CounterFamily

/-- A counter: a family, and the value of its label if it has one. -/
structure Counter where
  family : CounterFamily
  value? : Option String := none
  deriving DecidableEq, Repr

/-- What is counted. -/
inductive Occurrence where
  | sessionStarted
  | sessionExpired
  | polled (outcome : PollOutcome)
  | delivered (kind : EventKind)
  | cycled (cycle : Cycle)
  deriving DecidableEq, Repr

def Occurrence.counter : Occurrence → Counter
  | .sessionStarted => ⟨.watchSessionsStarted, none⟩
  | .sessionExpired => ⟨.watchSessionsExpired, none⟩
  | .polled outcome => ⟨.watchPolls, some outcome.word⟩
  | .delivered kind => ⟨.watchEvents, some kind.word⟩
  | .cycled cycle => ⟨.informerCycles, some cycle.word⟩

/-- An addition to a counter. -/
structure Increment where
  counter : Counter
  amount : Nat
  deriving DecidableEq, Repr

/-- All additions so far, last one first. -/
abbrev Ledger := List Increment

namespace Ledger

/-- Adds one to the counter of an occurrence. -/
def record (l : Ledger) (o : Occurrence) : Ledger := ⟨o.counter, 1⟩ :: l

/-- The value of a counter. -/
def total (l : Ledger) (c : Counter) : Nat :=
  (l.filter fun i => i.counter = c).foldr (fun i n => i.amount + n) 0 % UInt64.size

/-- Puts a text into a list in ascending order, once. -/
def insertText (s : String) : List String → List String
  | [] => [s]
  | t :: ts => if s < t then s :: t :: ts else if s = t then t :: ts else t :: insertText s ts

/-- The label values of a family that have been counted, in ascending order. -/
def labelValues (l : Ledger) (f : CounterFamily) : List String :=
  l.foldl (fun seen i =>
    match i.counter.value? with
    | some v => if i.counter.family = f then insertText v seen else seen
    | none => seen) []

/-- The counters of a family: the only one, or one for each label value that has been
counted. -/
def countersOf (l : Ledger) (f : CounterFamily) : List Counter :=
  match f.label? with
  | none => [⟨f, none⟩]
  | some _ => (l.labelValues f).map fun v => ⟨f, some v⟩

end Ledger

end BugFeed
