import BugFeed.Watch.Session

/-!
# Sessions among other threads

A session looks at its signal and does what it looked for at once. The task of a session that runs
on a thread of its own looks first and acts afterwards, and on another thread the session may be
stopped in between or its lifetime may end. What the task looked for is done all the same: a search
begins, its answer is picked up, a change is handed over. Only the next look finds the signal fired.

An answer is picked up before the signal fires because of a fault in it. If it has fired for another
reason in the meantime, it keeps that reason and the fault is told nevertheless.
-/

namespace BugFeed

set_option autoImplicit false

/-- How far a task has come with what it looks at the signal for. -/
inductive View where
  /-- It has not looked, or has done what it looked for. -/
  | away
  /-- It has seen that the signal had not fired. -/
  | clear
  /-- It has picked an answer up. -/
  | holding (response : Except TransportFault SearchResponse)

/-- Whether what a session does next at a time depends on its signal. -/
def Session.heeds (s : Session) (now : Nat) : Bool :=
  match s.phase with
  | .pausing wake => wake ≤ now
  | .searching => true
  | .delivering (b :: _) last _ => last ≠ some b.lastChange.truncate
  | .delivering [] _ _ | .closing _ | .ended => false

/-- A session with the task that does its work. -/
structure Task where
  session : Session
  view : View

namespace Task

/-- Opens a session on a thread of its own. -/
def start (now : Nat) (present : Instant) (plan : WatchPlan) : Task where
  session := .start now present plan
  view := .away

/-- Looks at a signal that has not fired. One that has is obeyed by a step of the session. -/
def look? (t : Task) (now : Nat) : Option Task :=
  match t.view with
  | .away =>
    if t.session.heeds now && !t.session.signal.isStopped then some { t with view := .clear }
    else none
  | .clear | .holding _ => none

/-- Does what it looked at the signal for: begins a search, for whose answer it needs no other
look, hands a change over, or goes by the answer that it picked up. -/
def act? (t : Task) (now : Nat) : Option Task :=
  match t.view with
  | .away => none
  | .clear =>
    match t.session.phase with
    | .pausing _ => some { t with session := t.session.ask now }
    | .delivering (b :: rest) _ next =>
      (t.session.handOver? now b rest next).map fun s => { session := s, view := .away }
    | .searching | .delivering [] _ _ | .closing _ | .ended => none
  | .holding response => some { session := t.session.pickUp now response, view := .away }

/-- Picks up the answer to the search. -/
def pickUp? (t : Task) (response : Except TransportFault SearchResponse) : Option Task :=
  match t.view with
  | .clear => if t.session.isSearching then some { t with view := .holding response } else none
  | .away | .holding _ => none

/-- Waits for the answer to the search or for room in the queue, and looks again after that. -/
def wait? (t : Task) : Option Task :=
  match t.view with
  | .clear =>
    match t.session.phase with
    | .searching => some { t with view := .away }
    | .delivering _ _ _ =>
      if t.session.attached && !t.session.hasRoom then some { t with view := .away } else none
    | .pausing _ | .closing _ | .ended => none
  | .away | .holding _ => none

end Task

end BugFeed
