/-!
# Stop signals

A stop signal fires once, for the first reason that it is given, and stays fired. Everyone who
holds it sees the same. A switchboard holds many signals, each known by any number of handles,
and those who wait for one of them.
-/

namespace BugFeed

set_option autoImplicit false

/-- Why a watch stops. -/
inductive StopReason where
  /-- Someone asked for it. -/
  | requested
  /-- It reached the end of its lifetime. -/
  | expired
  /-- Its search failed. -/
  | failed
  /-- Its consumer went away. -/
  | finished
  deriving DecidableEq, Repr

/-- A signal that fires once and keeps the reason. The reason is kept apart from the mark that those
who wait for the signal look at, and the two agree. -/
structure StopSignal where
  reason : Option StopReason := none
  cancelled : Bool := false
  agree : cancelled = reason.isSome := by rfl
  deriving DecidableEq, Repr

namespace StopSignal

/-- Fires the signal, and whether it had not fired before. -/
def trigger (s : StopSignal) (reason : StopReason) : StopSignal × Bool :=
  match s.reason with
  | some _ => (s, false)
  | none => ({ reason := some reason, cancelled := true }, true)

/-- The signal after it was fired for a reason or had been before. -/
def fire (s : StopSignal) (reason : StopReason) : StopSignal := (s.trigger reason).1

def isStopped (s : StopSignal) : Bool := s.cancelled

@[simp] theorem cancelled_eq_isSome (s : StopSignal) : s.cancelled = s.reason.isSome := s.agree

end StopSignal

/-- How a wait for a signal stands. -/
inductive WaitState where
  /-- Neither has the signal fired nor has the time run out. -/
  | waiting
  /-- The signal fired in time. -/
  | fired
  /-- The time ran out first. -/
  | late
  deriving DecidableEq, Repr

/-- Someone who waits for the signal at a place, for ever or until a time. -/
structure Waiter where
  place : Nat
  deadline : Option Nat
  state : WaitState
  deriving DecidableEq, Repr

/-- Signals, the handles that they are known by, those who wait for them, and a clock in
milliseconds. Handles and waiters name their signal by its place. -/
structure Switchboard where
  signals : List StopSignal
  handles : List Nat
  waiters : List Waiter
  now : Nat
  deriving DecidableEq, Repr

namespace Switchboard

/-- One signal with one handle. -/
def single : Switchboard := ⟨[{}], [0], [], 0⟩

/-- The place of the signal of a handle. -/
def place (b : Switchboard) (handle : Nat) : Nat := b.handles[handle]?.getD 0

/-- The signal at a place. -/
def signalAt (b : Switchboard) (place : Nat) : StopSignal := b.signals[place]?.getD {}

def signal (b : Switchboard) (handle : Nat) : StopSignal := b.signalAt (b.place handle)

/-- Adds a signal with a handle of its own, and which handle that is. -/
def new (b : Switchboard) : Switchboard × Nat :=
  ({ b with signals := b.signals ++ [{}], handles := b.handles ++ [b.signals.length] },
    b.handles.length)

/-- Adds a handle of the same signal, and which handle that is. -/
def clone (b : Switchboard) (handle : Nat) : Switchboard × Nat :=
  ({ b with handles := b.handles ++ [b.place handle] }, b.handles.length)

/-- A waiter after the signal at a place has fired. -/
def heard (place : Nat) (w : Waiter) : Waiter :=
  if w.state = .waiting ∧ w.place = place then { w with state := .fired } else w

/-- Fires the signal of a handle, and whether it had not fired before. -/
def trigger (b : Switchboard) (handle : Nat) (reason : StopReason) : Switchboard × Bool :=
  let (signal, first) := (b.signal handle).trigger reason
  ({ b with
      signals := b.signals.set (b.place handle) signal
      waiters := b.waiters.map (heard (b.place handle)) }, first)

/-- A waiter at a time: the wait is over if its time has run out. -/
def atTime (now : Nat) (w : Waiter) : Waiter :=
  match w.state, w.deadline with
  | .waiting, some deadline => if deadline ≤ now then { w with state := .late } else w
  | _, _ => w

/-- One who begins to wait for the signal of a handle, for ever or for some milliseconds. A wait for
no time at all is over at once. -/
def newWaiter (b : Switchboard) (handle : Nat) (ms : Option Nat) : Waiter :=
  let state := if (b.signal handle).isStopped then .fired else .waiting
  atTime b.now ⟨b.place handle, ms.map (b.now + ·), state⟩

/-- Adds one who waits for the signal of a handle, and which waiter that is. -/
def wait (b : Switchboard) (handle : Nat) (ms : Option Nat) : Switchboard × Nat :=
  ({ b with waiters := b.waiters ++ [b.newWaiter handle ms] }, b.waiters.length)

def pass (b : Switchboard) (ms : Nat) : Switchboard :=
  { b with now := b.now + ms, waiters := b.waiters.map (atTime (b.now + ms)) }

/-- How the wait of a waiter stands. -/
def waiterState (b : Switchboard) (waiter : Nat) : WaitState :=
  (b.waiters[waiter]?.map Waiter.state).getD .waiting

/-- Waits for the signal of a handle at most `ms` milliseconds while nothing else goes on, and
whether it fired. -/
def waitFor (b : Switchboard) (handle ms : Nat) : Switchboard × Bool :=
  let (b, waiter) := b.wait handle (some ms)
  let b := if b.waiterState waiter = .waiting then b.pass ms else b
  (b, b.waiterState waiter = .fired)

end Switchboard

end BugFeed
