import BugFeed.Settings.Policy
import BugFeed.Watch.Session

/-!
# Feeds

A feed says what is searched for, which of the bugs found are shown and how they are watched. It
gives lists, and watches that go on from the version of a list.
-/

namespace BugFeed

set_option autoImplicit false

/-- Why a watch is not opened. -/
inductive WatchFault where
  /-- The version to go on from is written by a token that is none. -/
  | token (fault : TokenFault)
  /-- No queue is as long as the one that is asked for. -/
  | queueTooLong
  deriving DecidableEq, Repr

/-- What a watch does that starts at a second: its times are those of the settings, and its queue
has room for one event at least. -/
def WatchPlan.startingAt (args : SearchArgs) (includes : BugInfo → Bool) (config : WatchConfig)
    (start : ResourceVersion) : WatchPlan where
  args := args
  includes := includes
  interval := config.pollIntervalMs.toNat
  lifetime := config.maxWatchDurationMs.toNat
  capacity := max 1 config.eventBufferSize.toNat
  start := start

/-- What a watch after a version does: it starts at the first instant that the version has not
covered, if there is one. -/
def WatchPlan.after? (args : SearchArgs) (includes : BugInfo → Bool) (config : WatchConfig)
    (version : ResourceVersion) : Option WatchPlan :=
  version.nextVisible?.map (startingAt args includes config)

/-- What is searched for, given the options of a list or a watch, which bugs are shown, and how
they are watched. -/
structure Feed where
  config : WatchConfig := {}
  argsFor : ListOptions → SearchArgs := fun _ => {}
  includes : BugInfo → Bool := fun _ => true

namespace Feed

/-- The version of a list to which the search gives nothing: the one in the options, or the
present. -/
def anchor (options : ListOptions) (present : Instant) : Except TokenFault ResourceVersion :=
  match options.version with
  | some token => if token.isEmpty then .ok ⟨present⟩ else ResourceVersion.parse token
  | none => .ok ⟨present⟩

/-- The list that the answer to a search gives. -/
def listOf (feed : Feed) (anchor : ResourceVersion)
    (answer : Except TransportFault SearchResponse) : Except Fault BugList :=
  match answer with
  | .ok response => .ok (.ofResponse response feed.includes anchor)
  | .error fault => .error (.transport fault)

/-- The second from which a watch goes on after a version. Tokens denote versions for which it is
in the supported range. -/
def startAfter (version : ResourceVersion) : ResourceVersion :=
  version.nextVisible?.getD version

/-- What the feed plans for a watch that starts at a second. -/
def planAt (feed : Feed) (options : ListOptions) (start : ResourceVersion) : WatchPlan :=
  .startingAt (feed.argsFor options) feed.includes feed.config start

/-- What a watch after the version in the options does. -/
def plan (feed : Feed) (options : ListOptions) : Except TokenFault WatchPlan := do
  let version ← ResourceVersion.parse (options.version.getD "")
  pure (feed.planAt options (startAfter version))

/-- What the feed plans from a version on that passes through its token. -/
def planFrom (feed : Feed) (options : ListOptions) (version : ResourceVersion) : WatchPlan :=
  feed.planAt options (startAfter version.truncate)

/-- Opens a watch. -/
def watch (feed : Feed) (options : ListOptions) (now : Nat) (present : Instant) :
    Except WatchFault Session :=
  match feed.plan options with
  | .error fault => .error (.token fault)
  | .ok plan =>
    if plan.capacity ≤ Session.longestQueue then .ok (.start now present plan)
    else .error .queueTooLong

def describe (feed : Feed) : String :=
  Text.describeRecord "ListWatcher" [("config", feed.config.describe)]

end Feed

end BugFeed
