import BugFeed.Settings.Policy
import BugFeed.Time.Wait

/-!
# Trying again

A task is tried until one attempt succeeds or the policy allows no further one. An attempt that
takes longer than the policy allows counts as failed. Between two attempts there is a pause: the
base delay at first, and then each time twice the last one, up to the cap. What remains of a task
that never succeeded is the fault of its last attempt.
-/

namespace BugFeed

set_option autoImplicit false

/-- How far the attempts at a task have come: how many have failed, and how many milliseconds the
next pause takes. -/
structure Retry where
  policy : BackoffPolicy
  failures : Nat
  pause : Nat
  deriving DecidableEq, Repr

namespace Retry

/-- The task before its first attempt. -/
def start (policy : BackoffPolicy) : Retry := ⟨policy, 0, policy.baseDelayMs.toNat⟩

/-- Whether the policy allows another attempt. -/
def mayTry (r : Retry) : Bool := r.failures < r.policy.maxRetries.toNat

/-- Milliseconds that an attempt may take. -/
def limit (r : Retry) : Nat := r.policy.timeoutMs.toNat

/-- The task after a failed attempt, without the pause. -/
def failed (r : Retry) : Retry := { r with failures := r.failures + 1 }

/-- The task after the pause. -/
def paused (r : Retry) : Retry :=
  { r with pause := min (r.pause * 2) r.policy.maxDelayMs.toNat }

/-- The fault of a task of which no attempt is allowed. -/
def notTried : Fault := .retryTaskFailed "Task failed after max retries"

/-- The fault of an attempt that took too long. -/
def timedOut (r : Retry) : Fault := .retryTimeout (.ofMillis r.limit)

end Retry

/-! ## Whole tasks -/

/-- An attempt that is left to itself: how many milliseconds it takes, and what comes of it. -/
structure Attempt (α : Type) where
  latency : Nat
  result : Except Fault α

/-- What trying a task came to: its result, how many attempts were made, the pauses between them
and how much time it took. -/
structure Trial (α : Type) where
  result : Except Fault α
  attempts : Nat
  pauses : List Nat
  spent : Nat

namespace Retry

/-- What comes of an attempt within the time that it may take. -/
def outcome {α : Type} (r : Retry) (a : Attempt α) : Except Fault α :=
  if a.latency ≤ r.limit then a.result else .error r.timedOut

/-- Milliseconds that an attempt is given. -/
def given {α : Type} (r : Retry) (a : Attempt α) : Nat := min a.latency r.limit

/-- Tries a task whose attempts are `attempts 0`, `attempts 1` and so on, from the next one on;
`last` is the fault of the attempt before. -/
def tryFrom {α : Type} (r : Retry) (attempts : Nat → Attempt α) (last : Fault) : Trial α :=
  if _ : r.mayTry then
    let a := attempts r.failures
    match r.outcome a with
    | .ok value => ⟨.ok value, 1, [], r.given a⟩
    | .error fault =>
      if r.failed.mayTry then
        let rest := r.failed.paused.tryFrom attempts fault
        ⟨rest.result, rest.attempts + 1, r.pause :: rest.pauses,
          waitEnd (r.given a) r.pause + rest.spent⟩
      else ⟨.error fault, 1, [], r.given a⟩
  else ⟨.error last, 0, [], 0⟩
termination_by r.policy.maxRetries.toNat - r.failures
decreasing_by
  have h : r.mayTry := ‹_›
  simp only [mayTry, decide_eq_true_eq] at h
  simp only [paused, failed]
  omega

/-- Tries a task under a policy. -/
def run {α : Type} (policy : BackoffPolicy) (attempts : Nat → Attempt α) : Trial α :=
  (start policy).tryFrom attempts notTried

end Retry

end BugFeed
