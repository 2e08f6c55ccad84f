import BugFeed.Simulation

/-!
# Consumers

What the consumer of a watch does in a simulation: it takes events, waits for them, asks the watch
to stop. It also asks for a list and waits for it.
-/

namespace BugFeed.Simulation

set_option autoImplicit false

/-- What a consumer gets who waits for an event. -/
inductive Receipt where
  /-- The next event. -/
  | event (event : WatchEvent)
  /-- There will be no further event. -/
  | closed
  /-- None came in time. -/
  | late
  deriving DecidableEq, Repr

/-- The session at a seat. -/
def session? (s : Simulation) (seat : Nat) : Option Session :=
  match s.party? seat with
  | some (.session session) => some session
  | _ => none

/-- Changes the session at a seat. -/
def changeSession (s : Simulation) (seat : Nat) (f : Session → Session) : Simulation :=
  s.change seat fun p =>
    match p with
    | .session session => .session (f session)
    | p => p

/-- Whether the consumer of a watch need not wait for the next event. -/
def isReady (seat : Nat) (s : Simulation) : Bool :=
  match s.session? seat with
  | some session => !session.queue.isEmpty || session.isClosed
  | none => true

/-- What the consumer of a watch gets without waiting. -/
def takeNow (s : Simulation) (seat : Nat) : Receipt × Simulation :=
  match s.session? seat with
  | none => (.closed, s)
  | some session =>
    match session.take? s.now with
    | some (event, session) => (.event event, s.changeSession seat fun _ => session)
    | none => (if session.isClosed then .closed else .late, s)

/-- What the consumer of a watch gets who waits for some milliseconds. What comes when they have
passed comes too late. -/
def receive (s : Simulation) (seat ms : Nat) : Receipt × Simulation :=
  let limit := s.now + ms
  let waited := s.passUntil (isReady seat) limit
  if s.now < limit ∧ limit ≤ waited.now then (.late, waited) else waited.takeNow seat

/-- Milliseconds after which the session at a seat hands nothing over that its consumer has not
made room for. -/
def remaining (s : Simulation) (seat : Nat) : Nat :=
  match s.session? seat with
  | some session => session.deadline - s.now
  | none => 0

/-- What the consumer of a watch gets who waits as long as something may come. -/
def receiveNext (s : Simulation) (seat : Nat) : Receipt × Simulation :=
  (s.passUntil (isReady seat) (s.now + s.remaining seat)).takeNow seat

/-- The events that a consumer takes who waits for each, until there are no more. -/
def collectFor (seat : Nat) : (fuel : Nat) → Simulation → List WatchEvent × Simulation
  | 0, s => ([], s)
  | fuel + 1, s =>
    match s.receiveNext seat with
    | (.event event, s) =>
      let (events, s) := collectFor seat fuel s
      (event :: events, s)
    | (_, s) => ([], s)

/-- The events that a consumer takes who waits for each, until there are no more. A session hands
no change over twice from one reply. -/
def collect (s : Simulation) (seat : Nat) : List WatchEvent × Simulation :=
  collectFor seat s.patience s

/-- Asks the session at a seat to stop and takes the events that it still hands over. -/
def stopAndCollect (s : Simulation) (seat : Nat) : List WatchEvent × Simulation :=
  (s.changeSession seat fun session => session.stop s.now).collect seat

/-- The list that the party at a seat has asked for, or why there is none, once that is known. -/
def listAt? (s : Simulation) (seat : Nat) : Option (Except Fault BugList) :=
  match s.party? seat with
  | some (.list call) => call.result?
  | _ => none

/-- When the answer comes that the party at a seat waits for. -/
def dueAt (s : Simulation) (seat : Nat) : Nat :=
  (((s.seat? seat).bind Seat.ticket).map Ticket.due).getD s.now

/-- Asks a feed for a list and waits for it. -/
def list (s : Simulation) (feed : Feed) (options : ListOptions) :
    Option (Except Fault BugList) × Simulation :=
  match ListCall.start feed options s.present with
  | .error fault => (some (.error (.token fault)), s)
  | .ok call =>
    let (s, seat) := s.join (.list call)
    let s := s.passUntil (fun s => (s.listAt? seat).isSome) (s.dueAt seat)
    (s.listAt? seat, s)

end BugFeed.Simulation
