import BugFeed.Simulation.Party
import BugFeed.Simulation.Service

/-!
# Simulations

Parties in virtual time, which search in one scripted service. Time stands still while anyone can
move or has an answer to receive, and then jumps to the next time at which someone wakes or an
answer comes. An answer is received before anything else happens to the one who waits for it, but a
session whose lifetime ends at that time does not look at it; an answer for which nobody waits any
more is forgotten. Of several parties that can move at one time, the one whose last move is longest
ago comes first, and it moves until it has to wait.

The wall clock stands still. It only matters for versions that lie after the present.
-/

namespace BugFeed

set_option autoImplicit false

/-- A party, the number by which it is known, and the answer that it waits for. -/
structure Seat where
  number : Nat
  party : Party
  ticket : Option Ticket := none

/-- Parties that search in one service, the time in milliseconds since the beginning, and what the
wall clock shows. The seats stand in the order in which their parties last moved. At most `patience`
moves of each party are made at one time. -/
structure Simulation where
  present : Instant
  service : Service
  seats : List Seat := []
  now : Nat := 0
  patience : Nat

namespace Seat

/-- Makes the party move. -/
def move? (seat : Seat) (now : Nat) (present : Instant) (service : Service) :
    Option (Seat × Service) :=
  match seat.party.move? now present with
  | none => none
  | some (party, some args) =>
    let (ticket, service) := service.begin now args
    some ({ seat with party := party, ticket := some ticket }, service)
  | some (party, none) =>
    let ticket := if party.isSearching then seat.ticket else none
    some ({ seat with party := party, ticket := ticket }, service)

/-- The next thing that happens: the answer comes, or the party moves. -/
def step? (seat : Seat) (now : Nat) (present : Instant) (service : Service) :
    Option (Seat × Service) :=
  match seat.ticket with
  | some ticket =>
    if ticket.due ≤ now ∧ seat.party.listens now then
      let party := seat.party.answer now present ticket.answer
      some ({ seat with party := party, ticket := none }, service.finish)
    else seat.move? now present service
  | none => seat.move? now present service

/-- All that happens until the party has to wait, but `patience` things at most. -/
def run (now : Nat) (present : Instant) : (patience : Nat) → Seat × Service → Seat × Service
  | 0, state => state
  | patience + 1, (seat, service) =>
    match seat.step? now present service with
    | some state => run now present patience state
    | none => (seat, service)

/-- The next times at which something happens. -/
def times (seat : Seat) : List Nat :=
  (seat.ticket.map Ticket.due).toList ++ seat.party.wakeTimes

end Seat

namespace Simulation

/-- Nobody searches yet in a service with a script. The patience is beyond what a script can keep
one party busy with at one time, unless it searches again without a pause. -/
def ofScript (replies : List Reply) (present : Instant) : Simulation :=
  let service : Service := { replies := replies }
  { present := present, service := service, patience := 64 + 16 * service.size }

/-! ## One time -/

/-- The first seat at which something happens has its turn and goes to the end. -/
def turn? (now : Nat) (present : Instant) (patience : Nat) (service : Service) :
    List Seat → Option (List Seat × Service)
  | [] => none
  | seat :: seats =>
    match seat.step? now present service with
    | some state =>
      let (seat, service) := Seat.run now present patience state
      some (seats ++ [seat], service)
    | none =>
      (turn? now present patience service seats).map fun (seats, service) =>
        (seat :: seats, service)

/-- Some turns at one time. -/
def turns (now : Nat) (present : Instant) (patience : Nat) :
    (count : Nat) → List Seat × Service → List Seat × Service
  | 0, state => state
  | count + 1, (seats, service) =>
    match turn? now present patience service seats with
    | some state => turns now present patience count state
    | none => (seats, service)

/-- Lets all happen that happens at the present time. What one party does lets no other one move,
so a turn for each is enough. -/
def settle (s : Simulation) : Simulation :=
  let (seats, service) :=
    turns s.now s.present s.patience s.seats.length (s.seats, s.service)
  { s with seats := seats, service := service }

/-! ## Time passes -/

/-- The first of some times after the present one, but `target` at the latest. -/
def firstAfter (now target : Nat) (times : List Nat) : Nat :=
  times.foldl (fun first t => if now < t ∧ t < first then t else first) target

/-- The first of some later times is later. -/
theorem lt_firstAfter {now target : Nat} (h : now < target) (times : List Nat) :
    now < firstAfter now target times := by
  unfold firstAfter
  induction times generalizing target with
  | nil => exact h
  | cons t times ih =>
    rw [List.foldl_cons]
    split
    · exact ih (And.left ‹_›)
    · exact ih h

/-- The next time at which something happens, but `target` at the latest. -/
def nextTime (s : Simulation) (target : Nat) : Nat :=
  firstAfter s.now target (s.seats.flatMap Seat.times)

/-- The simulation at a later time. -/
def atTime (s : Simulation) (now : Nat) : Simulation :=
  let later : Simulation := { s with now := now }
  later.settle

/-- Lets time pass until something is the case, but to `target` at the latest. -/
def passUntil (s : Simulation) (done : Simulation → Bool) (target : Nat) : Simulation :=
  if done s then s
  else if _ : s.now < target then (s.atTime (s.nextTime target)).passUntil done target
  else s
termination_by target - s.now
decreasing_by
  have h : s.now < s.nextTime target := lt_firstAfter ‹_› _
  have e : (s.atTime (s.nextTime target)).now = s.nextTime target := rfl
  omega

def pass (s : Simulation) (ms : Nat) : Simulation :=
  s.passUntil (fun _ => false) (waitEnd s.now ms)

/-! ## Seats -/

/-- Adds a party, and which seat it has. -/
def join (s : Simulation) (party : Party) : Simulation × Nat :=
  let number := s.seats.length
  let joined : Simulation := { s with seats := s.seats ++ [{ number := number, party := party }] }
  (joined.settle, number)

/-- The seat of a number. -/
def seat? (s : Simulation) (number : Nat) : Option Seat :=
  s.seats.find? fun seat => seat.number = number

/-- The party at the seat of a number. -/
def party? (s : Simulation) (number : Nat) : Option Party := (s.seat? number).map Seat.party

/-- Changes the party at the seat of a number. -/
def change (s : Simulation) (number : Nat) (f : Party → Party) : Simulation :=
  let changed : Simulation :=
    { s with seats := s.seats.map fun seat =>
        if seat.number = number then { seat with party := f seat.party } else seat }
  changed.settle

def counted (s : Simulation) : Ledger := s.seats.flatMap fun seat => seat.party.counted

end Simulation

end BugFeed
