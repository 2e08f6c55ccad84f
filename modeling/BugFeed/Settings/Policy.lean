import BugFeed.Fault
import BugFeed.Text.Record

/-!
# Settings

How often a watch polls and how long it lives, and how a failed list is tried again. Each setting
has a default; `validate` refuses settings that contradict each other.

The delay before retry number `n` is the base delay doubled `n` times, capped. It is computed
without large powers: from the sixty-fourth doubling on, every base but zero has passed every
cap.
-/

namespace BugFeed

set_option autoImplicit false

/-! ## The settings -/

/-- Polling and lifetime of a watch. -/
structure WatchConfig where
  /-- Milliseconds between two searches. -/
  pollIntervalMs : UInt64 := 10000
  /-- Milliseconds after which a watch ends and is to be resumed. -/
  maxWatchDurationMs : UInt64 := 1800000
  /-- How many events wait for their consumer at most. -/
  eventBufferSize : UInt64 := 100
  deriving DecidableEq, Repr

/-- How a task is tried again. -/
structure BackoffPolicy where
  /-- How many attempts are made at most. -/
  maxRetries : UInt64 := 5
  /-- Milliseconds that one attempt may take. -/
  timeoutMs : UInt64 := 60000
  /-- Milliseconds before the second attempt. -/
  baseDelayMs : UInt64 := 1000
  /-- Milliseconds between two attempts at most. -/
  maxDelayMs : UInt64 := 60000
  deriving DecidableEq, Repr

/-- The policies of all tasks that are tried again. -/
structure RetryPolicies where
  list : BackoffPolicy := {}
  deriving DecidableEq, Repr

/-- All settings. -/
structure InformerConfig where
  watch : WatchConfig := {}
  retry : RetryPolicies := {}
  deriving DecidableEq, Repr

/-! ## Contradictions -/

/-- A contradiction among settings. -/
inductive PolicyFlaw where
  /-- A setting that may not be zero is. -/
  | zero (key : String)
  /-- A watch would not live to its second search. -/
  | lifetimeBelowInterval (lifetime interval : UInt64)
  /-- The first delay is above the cap. -/
  | baseAboveMax (name : String) (base max : UInt64)
  deriving DecidableEq, Repr

def PolicyFlaw.message : PolicyFlaw → String
  | .zero key => key ++ " must be greater than 0"
  | .lifetimeBelowInterval lifetime interval =>
    "watch.max_watch_duration_ms (" ++ Text.decimal lifetime.toNat ++
      ") must not be shorter than poll_interval_ms (" ++ Text.decimal interval.toNat ++ ")"
  | .baseAboveMax name base max =>
    "retry." ++ name ++ ".base_delay_ms (" ++ Text.decimal base.toNat ++
      ") exceeds max_delay_ms (" ++ Text.decimal max.toNat ++ ")"

def PolicyFlaw.fault (f : PolicyFlaw) : Fault := .invalidConfig f.message

namespace WatchConfig

/-- The time between two searches. -/
def pollInterval (c : WatchConfig) : Span := .ofMillis c.pollIntervalMs.toNat

/-- The lifetime of a watch. -/
def maxWatchDuration (c : WatchConfig) : Span := .ofMillis c.maxWatchDurationMs.toNat

/-- The first contradiction among the settings of a watch. -/
def validate (c : WatchConfig) : Except PolicyFlaw Unit :=
  if c.pollIntervalMs = 0 then .error (.zero "watch.poll_interval_ms")
  else if c.eventBufferSize = 0 then .error (.zero "watch.event_buffer_size")
  else if c.maxWatchDurationMs < c.pollIntervalMs then
    .error (.lifetimeBelowInterval c.maxWatchDurationMs c.pollIntervalMs)
  else .ok ()

end WatchConfig

namespace BackoffPolicy

/-- The first contradiction in the policy of the named task. -/
def validate (p : BackoffPolicy) (name : String) : Except PolicyFlaw Unit :=
  if p.maxRetries = 0 then .error (.zero ("retry." ++ name ++ ".max_retries"))
  else if p.maxDelayMs < p.baseDelayMs then
    .error (.baseAboveMax name p.baseDelayMs p.maxDelayMs)
  else .ok ()

/-- How much larger the delay before retry number `attempt` is than the base. -/
def factor (attempt : Nat) : Nat :=
  if attempt < 64 then Nat.pow 2 attempt else UInt64.size - 1

/-- Milliseconds before retry number `attempt`, counted from zero. -/
def delayMs (p : BackoffPolicy) (attempt : Nat) : Nat :=
  min (p.baseDelayMs.toNat * factor attempt) p.maxDelayMs.toNat

/-- The delay before retry number `attempt`. -/
def delay (p : BackoffPolicy) (attempt : Nat) : Span := .ofMillis (p.delayMs attempt)

end BackoffPolicy

/-- The first contradiction among the policies. -/
def RetryPolicies.validate (p : RetryPolicies) : Except PolicyFlaw Unit := p.list.validate "list"

/-- The settings themselves, if nothing in them contradicts. -/
def InformerConfig.validate (c : InformerConfig) : Except PolicyFlaw InformerConfig := do
  c.watch.validate
  c.retry.validate
  pure c

/-! ## Descriptions -/

/-- A setting in words. -/
def describeWord (n : UInt64) : String := Text.decimal n.toNat

/-- The settings of a watch in words. -/
def WatchConfig.describe (c : WatchConfig) : String :=
  Text.describeRecord "WatchConfig" [
    ("poll_interval_ms", describeWord c.pollIntervalMs),
    ("max_watch_duration_ms", describeWord c.maxWatchDurationMs),
    ("event_buffer_size", describeWord c.eventBufferSize)]

def BackoffPolicy.describe (p : BackoffPolicy) : String :=
  Text.describeRecord "BackoffPolicy" [
    ("max_retries", describeWord p.maxRetries),
    ("timeout_ms", describeWord p.timeoutMs),
    ("base_delay_ms", describeWord p.baseDelayMs),
    ("max_delay_ms", describeWord p.maxDelayMs)]

def RetryPolicies.describe (p : RetryPolicies) : String :=
  Text.describeRecord "RetryPolicies" [("list", p.list.describe)]

def InformerConfig.describe (c : InformerConfig) : String :=
  Text.describeRecord "InformerConfig" [("watch", c.watch.describe), ("retry", c.retry.describe)]

end BugFeed
