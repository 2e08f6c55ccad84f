import BugFeed.Json.Decode
import BugFeed.Json.Written
import BugFeed.Settings.Policy

/-!
# Settings as JSON

Every setting may be absent and then has its default.
-/

namespace BugFeed

set_option autoImplicit false

open Json

namespace WatchConfig

/-- The settings of a watch as JSON. -/
def toJson (c : WatchConfig) : Value := .ofMembers [
  ("poll_interval_ms", .nat c.pollIntervalMs.toNat),
  ("max_watch_duration_ms", .nat c.maxWatchDurationMs.toNat),
  ("event_buffer_size", .nat c.eventBufferSize.toNat)]

/-- The settings of a watch of which some have been read. -/
structure Draft where
  pollIntervalMs : Option UInt64 := none
  maxWatchDurationMs : Option UInt64 := none
  eventBufferSize : Option UInt64 := none

/-- The settings of a watch as fields. -/
def slots : List (Slot Draft) := [
  slot "poll_interval_ms" (·.pollIntervalMs)
    (fun d a => { d with pollIntervalMs := some a }) word64,
  slot "max_watch_duration_ms" (·.maxWatchDurationMs)
    (fun d a => { d with maxWatchDurationMs := some a }) word64,
  slot "event_buffer_size" (·.eventBufferSize)
    (fun d a => { d with eventBufferSize := some a }) word64]

def ofDraft (d : Draft) : WatchConfig :=
  let default : WatchConfig := {}
  { pollIntervalMs := d.pollIntervalMs.getD default.pollIntervalMs
    maxWatchDurationMs := d.maxWatchDurationMs.getD default.maxWatchDurationMs
    eventBufferSize := d.eventBufferSize.getD default.eventBufferSize }

def decode : Decoder WatchConfig := recordOf slots {} fun d => .ok (ofDraft d)

end WatchConfig

namespace BackoffPolicy

def toJson (p : BackoffPolicy) : Value := .ofMembers [
  ("max_retries", .nat p.maxRetries.toNat),
  ("timeout_ms", .nat p.timeoutMs.toNat),
  ("base_delay_ms", .nat p.baseDelayMs.toNat),
  ("max_delay_ms", .nat p.maxDelayMs.toNat)]

/-- A policy of which some settings have been read. -/
structure Draft where
  maxRetries : Option UInt64 := none
  timeoutMs : Option UInt64 := none
  baseDelayMs : Option UInt64 := none
  maxDelayMs : Option UInt64 := none

/-- The settings of a policy as fields. -/
def slots : List (Slot Draft) := [
  slot "max_retries" (·.maxRetries) (fun d a => { d with maxRetries := some a }) word64,
  slot "timeout_ms" (·.timeoutMs) (fun d a => { d with timeoutMs := some a }) word64,
  slot "base_delay_ms" (·.baseDelayMs) (fun d a => { d with baseDelayMs := some a }) word64,
  slot "max_delay_ms" (·.maxDelayMs) (fun d a => { d with maxDelayMs := some a }) word64]

def ofDraft (d : Draft) : BackoffPolicy :=
  let default : BackoffPolicy := {}
  { maxRetries := d.maxRetries.getD default.maxRetries
    timeoutMs := d.timeoutMs.getD default.timeoutMs
    baseDelayMs := d.baseDelayMs.getD default.baseDelayMs
    maxDelayMs := d.maxDelayMs.getD default.maxDelayMs }

def decode : Decoder BackoffPolicy := recordOf slots {} fun d => .ok (ofDraft d)

end BackoffPolicy

namespace RetryPolicies

def toJson (p : RetryPolicies) : Value := .ofMembers [("list", p.list.toJson)]

/-- Policies of which some have been read. -/
structure Draft where
  list : Option BackoffPolicy := none

def slots : List (Slot Draft) := [
  slot "list" (·.list) (fun _ a => { list := some a }) BackoffPolicy.decode]

def decode : Decoder RetryPolicies := recordOf slots {} fun d => .ok { list := d.list.getD {} }

end RetryPolicies

namespace InformerConfig

def toJson (c : InformerConfig) : Value := .ofMembers [
  ("watch", c.watch.toJson),
  ("retry", c.retry.toJson)]

/-- Settings of which some have been read. -/
structure Draft where
  watch : Option WatchConfig := none
  retry : Option RetryPolicies := none

def slots : List (Slot Draft) := [
  slot "watch" (·.watch) (fun d a => { d with watch := some a }) WatchConfig.decode,
  slot "retry" (·.retry) (fun d a => { d with retry := some a }) RetryPolicies.decode]

def decode : Decoder InformerConfig :=
  recordOf slots {} fun d => .ok { watch := d.watch.getD {}, retry := d.retry.getD {} }

end InformerConfig

end BugFeed
