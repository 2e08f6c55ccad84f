import BugFeed.Number.Written
import BugFeed.Settings.Layer
import BugFeed.Settings.Policy

/-!
# Settings with types

The settings that a tree gives. Every setting is a 64-bit number: a whole number within the range,
a truth value as one or zero, a floating-point number rounded, or a text with a word for a truth
value or with digits. Records are tables whose other keys do not matter, or lists of their fields
in order. What is absent has its default.
-/

namespace BugFeed.Settings

set_option autoImplicit false

/-! ## Faults -/

/-- What was found in the place of something else. -/
inductive Finding where
  | scalar (value : Scalar)
  | list
  | table
  deriving DecidableEq, Repr

/-- Why settings cannot be loaded. -/
inductive LoadFault where
  /-- Something is no setting of the type that is wanted under its key. -/
  | misfit (finding : Finding) (wanted : String) (key : String) (origin : Origin)
  /-- Something is no record of the name. -/
  | noRecord (finding : Finding) (name : String)
  /-- A present setting is beyond the numbers that a layer holds. -/
  | tooLarge (n : Nat)
  /-- A place of a list that a layer names cannot be reached. -/
  | noPlace
  /-- There is no file of the name. -/
  | noFile (name : String)
  /-- The file has no known format. -/
  | noFormat (name : String)
  /-- The file is not written in its format. -/
  | malformed (name : String)
  deriving DecidableEq, Repr

/-- What was found, by the type of the setting. -/
def Finding.describe : Finding → String
  | .scalar .blank => "unit value"
  | .scalar (.truth b) => "boolean `" ++ Text.describeTruth b ++ "`"
  | .scalar (.integer n) => "64-bit integer `" ++ toString n ++ "`"
  | .scalar (.float x) => "floating point `" ++ x.display ++ "`"
  | .scalar (.text s) => "string " ++ Text.quoted s
  | .list => "sequence"
  | .table => "map"

/-- What was found, by its shape. -/
def Finding.describeShape : Finding → String
  | .scalar (.integer n) => "integer `" ++ toString n ++ "`"
  | .scalar (.float x) => "floating point `" ++ x.displayWithPoint ++ "`"
  | finding => finding.describe

namespace LoadFault

/-- The fault in words; of a malformed file only the name is told. -/
def message : LoadFault → String
  | .misfit finding wanted key origin =>
    "invalid type: " ++ finding.describe ++ ", expected " ++ wanted ++ " for key `" ++ key ++ "`" ++
      (match origin with
        | some origin => " in " ++ origin
        | none => "")
  | .noRecord finding name =>
    "invalid type: " ++ finding.describeShape ++ ", expected struct " ++ name
  | .tooLarge n =>
    "value " ++ Text.decimal n ++ " is greater than the max " ++ Text.decimal (UInt64.size / 2 - 1)
  | .noPlace => "a place of a list is out of reach"
  | .noFile name => "configuration file \"" ++ name ++ "\" not found"
  | .noFormat name => "configuration file \"" ++ name ++ "\" is not of a registered file format"
  | .malformed name => name

/-- A key below another one. -/
def joined (key below : String) : String :=
  if below.isEmpty || below.startsWith "[" then key ++ below else key ++ "." ++ below

/-- The fault of what stands under a key. -/
def under (key : String) : LoadFault → LoadFault
  | .misfit finding wanted below origin => .misfit finding wanted (joined key below) origin
  | fault => fault

/-- The fault of what stands at a place of a list. -/
def atPlace (place : Nat) : LoadFault → LoadFault
  | .misfit finding wanted below origin =>
    .misfit finding wanted ("[" ++ Text.decimal place ++ "]" ++ below) origin
  | fault => fault

end LoadFault

/-! ## Numbers -/

/-- What is found where a node is. -/
def finding : Node → Finding
  | .leaf _ value => .scalar value
  | .list _ _ => .list
  | .table _ _ => .table

/-- Where a node comes from. -/
def originOf : Node → Origin
  | .leaf origin _ | .list origin _ | .table origin _ => origin

/-- The number that a text stands for. -/
def wordOfText? (s : String) : Option UInt64 :=
  let word := lowercase s
  if word = "true" ∨ word = "on" ∨ word = "yes" then some 1
  else if word = "false" ∨ word = "off" ∨ word = "no" then some 0
  else readWord64? s

def word64 (node : Node) : Except LoadFault UInt64 :=
  let misfit (wanted : String) : Except LoadFault UInt64 :=
    .error (.misfit (finding node) wanted "" (originOf node))
  match node with
  | .leaf _ (.integer n) =>
    if 0 ≤ n ∧ n < UInt64.size then .ok (UInt64.ofNat n.toNat)
    else misfit "an unsigned 64 bit or less integer"
  | .leaf _ (.truth b) => .ok (if b then 1 else 0)
  | .leaf _ (.float x) => .ok x.toWord64
  | .leaf _ (.text s) =>
    match wordOfText? s with
    | some n => .ok n
    | none => misfit "an integer"
  | _ => misfit "an integer"

/-! ## Records -/

/-- Checks that a node can be a record of a name. -/
def expectRecord (name : String) (node : Node) : Except LoadFault Unit :=
  match node with
  | .leaf _ value => .error (.noRecord (.scalar value) name)
  | _ => .ok ()

/-- The field of a record under a key or, in a list, at a place. -/
def field {α : Type} (node : Node) (key : String) (place : Nat) (default : α)
    (read : Node → Except LoadFault α) : Except LoadFault α :=
  match node with
  | .table _ entries =>
    match entries.get? key with
    | some value => (read value).mapError (LoadFault.under key)
    | none => .ok default
  | .list _ items =>
    match items.get? place with
    | some value => (read value).mapError (LoadFault.atPlace place)
    | none => .ok default
  | .leaf _ _ => .ok default

end BugFeed.Settings

namespace BugFeed

open Settings

/-! ## The settings of a tree -/

/-- The settings of a watch that a tree gives. -/
def WatchConfig.ofNode (node : Node) : Except LoadFault WatchConfig := do
  let default : WatchConfig := {}
  expectRecord "WatchConfig" node
  pure {
    pollIntervalMs := ← field node "poll_interval_ms" 0 default.pollIntervalMs word64
    maxWatchDurationMs := ← field node "max_watch_duration_ms" 1 default.maxWatchDurationMs word64
    eventBufferSize := ← field node "event_buffer_size" 2 default.eventBufferSize word64 }

/-- The policy that a tree gives. -/
def BackoffPolicy.ofNode (node : Node) : Except LoadFault BackoffPolicy := do
  let default : BackoffPolicy := {}
  expectRecord "BackoffPolicy" node
  pure {
    maxRetries := ← field node "max_retries" 0 default.maxRetries word64
    timeoutMs := ← field node "timeout_ms" 1 default.timeoutMs word64
    baseDelayMs := ← field node "base_delay_ms" 2 default.baseDelayMs word64
    maxDelayMs := ← field node "max_delay_ms" 3 default.maxDelayMs word64 }

/-- The policies that a tree gives. -/
def RetryPolicies.ofNode (node : Node) : Except LoadFault RetryPolicies := do
  expectRecord "RetryPolicies" node
  pure { list := ← field node "list" 0 {} BackoffPolicy.ofNode }

/-- The settings that a tree gives. -/
def InformerConfig.ofNode (node : Node) : Except LoadFault InformerConfig := do
  expectRecord "InformerConfig" node
  pure {
    watch := ← field node "watch" 0 {} WatchConfig.ofNode
    retry := ← field node "retry" 1 {} RetryPolicies.ofNode }

/-! ## The tree of settings -/

/-- A number as a node. Layers hold signed numbers. -/
def Settings.nodeOfWord (n : UInt64) : Except LoadFault Node :=
  if n.toNat < UInt64.size / 2 then .ok (.leaf none (.integer n.toNat))
  else .error (.tooLarge n.toNat)

/-- A record as a node. -/
def Settings.nodeOfFields : List (String × Node) → Entries Origin
  | [] => .done
  | (key, value) :: rest => .more key value (nodeOfFields rest)

/-- The settings of a watch as a node. -/
def WatchConfig.toNode (c : WatchConfig) : Except LoadFault Node := do
  pure (.table none (nodeOfFields [
    ("poll_interval_ms", ← nodeOfWord c.pollIntervalMs),
    ("max_watch_duration_ms", ← nodeOfWord c.maxWatchDurationMs),
    ("event_buffer_size", ← nodeOfWord c.eventBufferSize)]))

/-- A policy as a node. -/
def BackoffPolicy.toNode (p : BackoffPolicy) : Except LoadFault Node := do
  pure (.table none (nodeOfFields [
    ("max_retries", ← nodeOfWord p.maxRetries),
    ("timeout_ms", ← nodeOfWord p.timeoutMs),
    ("base_delay_ms", ← nodeOfWord p.baseDelayMs),
    ("max_delay_ms", ← nodeOfWord p.maxDelayMs)]))

/-- All settings as a layer. -/
def InformerConfig.toLayer (c : InformerConfig) : Except LoadFault Layer := do
  let watch ← c.watch.toNode
  let list ← c.retry.list.toNode
  pure [("watch", watch), ("retry", .table none (nodeOfFields [("list", list)]))]

end BugFeed
