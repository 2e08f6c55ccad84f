import BugFeed.Feed
import BugFeed.Retry
import BugFeed.Store

/-!
# Informers

An informer keeps a store equal to what a feed shows. It lists, takes the list over into the
store, and watches from the version of the list on; the store follows the events of the watch,
and the version that the informer has come to is the latest change among them. A watch that
reached the end of its lifetime is followed by another one from that version. A watch that failed
is followed by a pause and a new list; the pauses grow with the number of failures since a watch
last reached its end. An informer whose watch would need a longer queue than there can be breaks
down.

The informer is a machine like the sessions that it opens. `move?` is what it does by itself,
`answer` and `shutDown` are what happens to it from outside. A shutdown comes before everything
else: the informer stops its watch, discards the events that are still handed over, and is done.
-/

namespace BugFeed

set_option autoImplicit false

/-! ## States -/

/-- What an informer is doing. -/
inductive InformerPhase where
  /-- It has not been started. -/
  | idle
  /-- It waits until a time and then lists. -/
  | resting (wake : Nat)
  /-- It waits until a time for the answer to a search for the list. A list to which the search
  gives nothing has the version `anchor`, the time at which the search began. -/
  | listing (retry : Retry) (deadline : Nat) (anchor : ResourceVersion)
  /-- It waits until a time and then tries to list once more. -/
  | retrying (retry : Retry) (wake : Nat)
  /-- It takes the events of a watch. -/
  | watching (session : Session)
  /-- It has been shut down and discards the events of its last watch. -/
  | draining (session : Session)
  /-- It is done. -/
  | finished (outcome : Except Fault Unit)
  /-- It has broken down, because no queue is as long as its watch would need. -/
  | broken

/-- Something that an informer did. -/
inductive InformerNote where
  /-- It began to list. -/
  | began
  /-- It began a search for the list. -/
  | asked (args : SearchArgs)
  /-- An attempt to list failed. -/
  | failed (fault : Fault)
  /-- It took a list over into the store. -/
  | listed (list : BugList)
  /-- It opened a watch from a version on. -/
  | opened (version : ResourceVersion)
  /-- It took over what an event reports. -/
  | applied (event : WatchEvent)
  /-- Its watch ended, with the status that was the last event, if any. -/
  | closed (status : Option Status)
  /-- It began a pause of so many milliseconds before it lists again. -/
  | rested (pause : Nat)
  /-- It discarded an event. -/
  | discarded (event : WatchEvent)
  /-- It was done. -/
  | finished (outcome : Except Fault Unit)

/-- An informer: its feed and the hints for it, the policy for tasks that fail, the store that it
keeps and whether a list has been taken over into it, what it is doing, the version that it has
come to, how many watches have failed since one last reached its end, whether it has been shut
down, what it counted, the watches that it has left behind and the log of all that it did with the
times, last one first. -/
structure Informer where
  feed : Feed
  labels : Catalog String
  policy : BackoffPolicy
  store : Store := .empty
  synced : Bool := false
  phase : InformerPhase := .idle
  version : ResourceVersion := ⟨Instant.epoch⟩
  relists : Nat := 0
  stopping : Bool := false
  ledger : Ledger := []
  past : List Session := []
  log : List (Nat × InformerNote) := []

namespace Informer

/-- The most failed watches that are counted. -/
def mostRelists : Nat := UInt32.size - 1

/-- The options of a search for the list. -/
def listOptions (i : Informer) : ListOptions := { labels := i.labels }

/-- The options of a watch from the present version on. -/
def watchOptions (i : Informer) : ListOptions :=
  { version := some i.version.display, labels := i.labels }

/-- The session of the informer, if it has one now. -/
def session? (i : Informer) : Option Session :=
  match i.phase with
  | .watching s | .draining s => some s
  | _ => none

/-- All that the informer and its sessions have counted. -/
def counted (i : Informer) : Ledger :=
  i.ledger ++ (i.session?.toList ++ i.past).flatMap Session.ledger

/-- Whether the informer waits for the answer to a search. -/
def isSearching (i : Informer) : Bool :=
  match i.phase with
  | .listing _ _ _ => true
  | .watching s | .draining s => s.isSearching
  | _ => false

/-- What the informer came to, if it is done. -/
def outcome? (i : Informer) : Option (Except Fault Unit) :=
  match i.phase with
  | .finished outcome => some outcome
  | _ => none

/-- Whether the informer has been started and is not done. -/
def isRunning (i : Informer) : Bool :=
  match i.phase with
  | .idle | .finished _ | .broken => false
  | _ => true

def isBroken (i : Informer) : Bool :=
  match i.phase with
  | .broken => true
  | _ => false

/-! ## Parts of moves -/

def note (i : Informer) (now : Nat) (n : InformerNote) : Informer :=
  { i with log := (now, n) :: i.log }

def count (i : Informer) (o : Occurrence) : Informer := { i with ledger := i.ledger.record o }

def finish (i : Informer) (now : Nat) (outcome : Except Fault Unit) : Informer :=
  { i with phase := .finished outcome }.note now (.finished outcome)

/-- Leaves the session behind. -/
def leave (i : Informer) : Informer := { i with past := i.session?.toList ++ i.past }

/-- Searches for the list. -/
def ask (i : Informer) (now : Nat) (present : Instant) (retry : Retry) :
    Informer × Option SearchArgs :=
  let args := i.feed.argsFor i.listOptions
  ({ i with phase := .listing retry (now + retry.limit) ⟨present⟩ }.note now (.asked args),
    some args)

/-- Begins to list. -/
def beginList (i : Informer) (now : Nat) (present : Instant) : Informer × Option SearchArgs :=
  let i := (i.count (.cycled .list)).note now .began
  let retry := Retry.start i.policy
  if retry.mayTry then i.ask now present retry else (i.finish now (.error Retry.notTried), none)

/-- An attempt to list has failed: after a pause there is another one, if the policy allows. -/
def attemptFailed (i : Informer) (now : Nat) (retry : Retry) (fault : Fault) : Informer :=
  let i := i.note now (.failed fault)
  if retry.failed.mayTry then
    { i with phase := .retrying retry.failed.paused (waitEnd now retry.pause) }
  else i.finish now (.error fault)

/-- Opens a watch from the present version on. -/
def openWatch (i : Informer) (now : Nat) (present : Instant) : Informer :=
  match i.feed.watch i.watchOptions now present with
  | .ok session => { i with phase := .watching session }.note now (.opened i.version)
  | .error (.token fault) => i.finish now (.error (.token fault))
  | .error .queueTooLong => { i with phase := .broken }

/-- Takes a list over into the store and watches from its version on. -/
def takeOver (i : Informer) (now : Nat) (present : Instant) (list : BugList) : Informer :=
  match ResourceVersion.parse list.version with
  | .ok version =>
    { i with store := .replace list.items, synced := true, version := version }.note now
      (.listed list) |>.openWatch now present
  | .error fault => i.finish now (.error (.token fault))

/-- Goes on with another watch. -/
def rewatch (i : Informer) (now : Nat) (present : Instant) : Informer :=
  ({ i.leave with relists := 0 }.count (.cycled .rewatch)).openWatch now present

/-- Pauses before listing again. -/
def rest (i : Informer) (now : Nat) : Informer :=
  let pause := i.policy.delayMs i.relists
  { i.leave with
    phase := .resting (waitEnd now pause)
    relists := min (i.relists + 1) mostRelists }.note now (.rested pause)

/-- Takes over what an event about a bug reports. -/
def absorb (i : Informer) (now : Nat) (event : WatchEvent) (b : Bug) : Informer :=
  { i with
    version := i.version.latest ⟨b.lastChange⟩
    store := (i.store.apply event).1 }.note now (.applied event)

/-- Acts on an event of the watch. -/
def consume (i : Informer) (now : Nat) (present : Instant) (event : WatchEvent) : Informer :=
  match event with
  | .added b | .modified b => i.absorb now event b
  | .error status =>
    let i := i.note now (.closed (some status))
    if status.isResumable then i.rewatch now present else i.rest now

/-! ## Moves of the informer -/

/-- Makes a session of the informer move. -/
def moveSession? (i : Informer) (now : Nat) (s : Session) (wrap : Session → InformerPhase) :
    Option (Informer × Option SearchArgs) :=
  (s.move? now).map fun (s, args) => ({ i with phase := wrap s }, args)

/-- The next move of an informer that has been shut down. -/
def settleDown? (i : Informer) (now : Nat) : Option (Informer × Option SearchArgs) :=
  match i.phase with
  | .idle | .finished _ | .broken => none
  | .resting _ | .listing _ _ _ | .retrying _ _ => some (i.finish now (.ok ()), none)
  | .watching s => some ({ i with phase := .draining (s.stop now) }, none)
  | .draining s =>
    match s.take? now with
    | some (event, s) => some ({ i with phase := .draining s }.note now (.discarded event), none)
    | none =>
      if s.isClosed then some (i.leave.finish now (.ok ()), none)
      else i.moveSession? now s .draining

/-- The next move of an informer that has not been shut down. -/
def proceed? (i : Informer) (now : Nat) (present : Instant) :
    Option (Informer × Option SearchArgs) :=
  match i.phase with
  | .idle | .finished _ | .broken => none
  | .resting wake => if wake ≤ now then some (i.beginList now present) else none
  | .listing retry deadline _ =>
    if deadline ≤ now then some (i.attemptFailed now retry retry.timedOut, none) else none
  | .retrying retry wake => if wake ≤ now then some (i.ask now present retry) else none
  | .watching s =>
    match s.take? now with
    | some (event, s) => some ({ i with phase := .watching s }.consume now present event, none)
    | none =>
      if s.isClosed then some ((i.note now (.closed none)).rewatch now present, none)
      else i.moveSession? now s .watching
  | .draining s => i.moveSession? now s .draining

/-- The next move of the informer, and the search that it begins with it. -/
def move? (i : Informer) (now : Nat) (present : Instant) :
    Option (Informer × Option SearchArgs) :=
  if i.stopping then i.settleDown? now else i.proceed? now present

/-- The next time at which the informer moves if nothing happens to it before. -/
def wakeTimes (i : Informer) : List Nat :=
  match i.phase with
  | .resting wake | .retrying _ wake => [wake]
  | .listing _ deadline _ => [deadline]
  | .watching s | .draining s => s.wakeTimes
  | .idle | .finished _ | .broken => []

/-! ## What happens to the informer -/

/-- Starts the informer, with the shutdown already asked for if `stopping`. -/
def start (i : Informer) (now : Nat) (stopping : Bool) : Informer :=
  { i with phase := .resting now, relists := 0, stopping := stopping }

def shutDown (i : Informer) : Informer := { i with stopping := true }

/-- Whether the informer looks at an answer that comes at a time. -/
def listens (i : Informer) (now : Nat) : Bool :=
  match i.session? with
  | some s => s.listens now
  | none => !i.stopping

/-- Gives the informer the answer to its search. An answer for the list that finds it shut down is
not looked at. -/
def answer (i : Informer) (now : Nat) (present : Instant)
    (response : Except TransportFault SearchResponse) : Informer :=
  match i.phase with
  | .listing retry _ anchor =>
    if i.stopping then i
    else
      match i.feed.listOf anchor response with
      | .ok list => i.takeOver now present list
      | .error fault => i.attemptFailed now retry fault
  | .watching s => { i with phase := .watching (s.answer now response) }
  | .draining s => { i with phase := .draining (s.answer now response) }
  | _ => i

/-- Changes the store from outside. -/
def withStore (i : Informer) (store : Store) : Informer := { i with store := store }

end Informer

end BugFeed
