import Mathlib.Order.Monotone.Basic
import BugFeed.Proofs.Retry.Attempts

/-!
# The delays between attempts

The delay before a retry is the base delay, doubled with every retry, up to the cap. It is computed
in two ways. The delay of a given retry is a product with a power of two, in words: a shift that
leaves nothing of the base and a product that exceeds a word both stand for a delay beyond the cap
(`toNat_delayWord`). The pauses of a task are doubled one from the other, as lengths of time, the
first one being the base delay, whatever the cap is (`Tries.getElem?_pauses`). With a base that does
not exceed the cap both are the same, and no doubling overflows (`backoffs_agree`).
-/

namespace BugFeed

set_option autoImplicit false

/-! ## Arithmetic of words and lengths of time -/

/-- The product of two words, or the largest word if the product exceeds it. -/
def saturatingMul (a b : UInt64) : UInt64 := .ofNat (min (a.toNat * b.toNat) (UInt64.size - 1))

namespace Span

/-- Twice a length of time, unless its seconds exceed a word. -/
def twice? (s : Span) : Option Span :=
  let seconds := s.seconds * 2 + s.nanos * 2 / 1000000000
  if seconds < UInt64.size then some ⟨seconds, s.nanos * 2 % 1000000000⟩ else none

/-- The shorter of two lengths of time. -/
def atMost (s cap : Span) : Span :=
  if s.seconds < cap.seconds ∨ s.seconds = cap.seconds ∧ s.nanos ≤ cap.nanos then s else cap

theorem twice?_ofMillis {ms : Nat} (fits : ms * 2 / 1000 < UInt64.size) :
    (ofMillis ms).twice? = some (ofMillis (ms * 2)) := by
  have seconds : ms / 1000 * 2 + ms % 1000 * 1000000 * 2 / 1000000000 = ms * 2 / 1000 := by omega
  have nanos : ms % 1000 * 1000000 * 2 % 1000000000 = ms * 2 % 1000 * 1000000 := by omega
  simp only [twice?, ofMillis, seconds, nanos, fits, if_true]

theorem atMost_ofMillis (a b : Nat) : (ofMillis a).atMost (ofMillis b) = ofMillis (min a b) := by
  have shorter : (a / 1000 < b / 1000 ∨ a / 1000 = b / 1000 ∧
      a % 1000 * 1000000 ≤ b % 1000 * 1000000) ↔ a ≤ b := by omega
  simp only [atMost, ofMillis, shorter]
  split
  · rw [Nat.min_eq_left (by assumption)]
  · rw [Nat.min_eq_right (by omega)]

end Span

namespace BackoffPolicy

/-- One, shifted as often as there were attempts, or the largest word if nothing of it remains. -/
def factorWord (attempt : Nat) : UInt64 :=
  if attempt < 64 then (1 : UInt64) <<< UInt64.ofNat attempt else .ofNat (UInt64.size - 1)

/-- The delay before retry number `attempt` in milliseconds, in words. -/
def delayWord (p : BackoffPolicy) (attempt : Nat) : UInt64 :=
  min (saturatingMul p.baseDelayMs (factorWord attempt)) p.maxDelayMs

/-- Pause number `k` of a task, doubled from the one before as a length of time, unless one of the
doublings overflows. -/
def pause? (p : BackoffPolicy) : Nat → Option Span
  | 0 => some (.ofMillis p.baseDelayMs.toNat)
  | k + 1 => (p.pause? k).bind fun s =>
    s.twice?.map fun t => t.atMost (.ofMillis p.maxDelayMs.toNat)

variable (p : BackoffPolicy)

/-- A power of two that exceeds a word gives the cap, as the largest word does. -/
theorem delayMs_eq (a : Nat) :
    p.delayMs a = min (p.baseDelayMs.toNat * 2 ^ a) p.maxDelayMs.toNat := by
  rw [delayMs, factor]
  split
  · rfl
  · rename_i beyond
    have cap : p.maxDelayMs.toNat < UInt64.size := p.maxDelayMs.toNat_lt
    rcases Nat.eq_zero_or_pos p.baseDelayMs.toNat with zero | positive
    · rw [zero, Nat.zero_mul, Nat.zero_mul]
    · have power : 2 ^ 64 ≤ 2 ^ a :=
        Nat.pow_le_pow_right Nat.two_pos (Nat.le_of_not_lt beyond)
      have size : UInt64.size = 2 ^ 64 := rfl
      have word := Nat.le_mul_of_pos_left (UInt64.size - 1) positive
      have shifted := Nat.le_mul_of_pos_left (2 ^ a) positive
      rw [Nat.min_eq_right (by omega), Nat.min_eq_right (by omega)]

theorem toNat_factorWord (a : Nat) : (factorWord a).toNat = factor a := by
  rw [factorWord, factor]
  split
  · rename_i within
    have power : 2 ^ a < 2 ^ 64 := Nat.pow_lt_pow_right Nat.one_lt_two within
    have count : (UInt64.ofNat a).toNat = a :=
      UInt64.toNat_ofNat_of_lt' (Nat.lt_trans within (by decide))
    rw [UInt64.toNat_shiftLeft, count, Nat.mod_eq_of_lt within, Nat.shiftLeft_eq]
    exact (Nat.mod_eq_of_lt (by simpa using power)).trans (Nat.one_mul _)
  · rfl

theorem toNat_saturatingMul (a b : UInt64) :
    (saturatingMul a b).toNat = min (a.toNat * b.toNat) (UInt64.size - 1) := by
  rw [saturatingMul]
  exact UInt64.toNat_ofNat_of_lt' (Nat.lt_of_le_of_lt (Nat.min_le_right _ _) (by decide))

theorem toNat_delayWord (a : Nat) : (p.delayWord a).toNat = p.delayMs a := by
  have cap : p.maxDelayMs.toNat < UInt64.size := p.maxDelayMs.toNat_lt
  rw [delayWord, UInt64.toNat_min, toNat_saturatingMul, toNat_factorWord, delayMs, Nat.min_assoc,
    Nat.min_eq_right (show p.maxDelayMs.toNat ≤ UInt64.size - 1 by omega)]

theorem monotone_delayMs : Monotone p.delayMs := by
  intro a b le
  rw [delayMs_eq, delayMs_eq]
  have powers := Nat.mul_le_mul_left p.baseDelayMs.toNat (Nat.pow_le_pow_right Nat.two_pos le)
  omega

theorem delayMs_le (a : Nat) : p.delayMs a ≤ p.maxDelayMs.toNat := Nat.min_le_right _ _

variable {p}

theorem base_le_of_validate {name : String} (valid : p.validate name = .ok ()) :
    p.baseDelayMs.toNat ≤ p.maxDelayMs.toNat := by
  simp only [validate] at valid
  split at valid
  · cases valid
  · split at valid
    · cases valid
    · rename_i within
      exact Nat.le_of_not_lt fun above => within (UInt64.lt_iff_toNat_lt.mpr above)

/-- Doubling and capping the delay of one retry gives that of the next. -/
theorem delayMs_succ (k : Nat) :
    p.delayMs (k + 1) = min (p.delayMs k * 2) p.maxDelayMs.toNat := by
  rw [delayMs_eq, delayMs_eq, Nat.pow_succ, ← Nat.mul_assoc]
  omega

theorem pause?_eq (within : p.baseDelayMs.toNat ≤ p.maxDelayMs.toNat) (k : Nat) :
    p.pause? k = some (p.delay k) := by
  induction k with
  | zero =>
      rw [pause?, delay, delayMs_eq, Nat.pow_zero, Nat.mul_one, Nat.min_eq_left within]
  | succ k ih =>
      have cap : p.maxDelayMs.toNat < UInt64.size := p.maxDelayMs.toNat_lt
      have below := p.delayMs_le k
      have fits : p.delayMs k * 2 / 1000 < UInt64.size := by omega
      rw [pause?, ih, Option.bind_some, delay, Span.twice?_ofMillis fits, Option.map_some,
        Span.atMost_ofMillis, ← delayMs_succ]
      rfl

end BackoffPolicy

/-! ## The pauses of a task -/

namespace Retry

variable {α : Type} {attempts : Nat → Attempt α} {r : Retry} {last : Fault} {trial : Trial α}

/-- The pauses of a task are the delays of its retries, if the next one is. -/
theorem Tries.getElem?_pauses (tries : Tries attempts r last trial)
    (next : r.pause = r.policy.delayMs r.failures) {k pause : Nat}
    (made : trial.pauses[k]? = some pause) : pause = r.policy.delayMs (r.failures + k) := by
  induction tries generalizing k with
  | none | success | failure => cases made
  | @again r last fault rest _ _ _ _ ih =>
      cases k with
      | zero =>
          cases made
          exact next
      | succ k =>
          have doubled : r.failed.paused.pause =
              r.failed.paused.policy.delayMs r.failed.paused.failures := by
            change min (r.pause * 2) _ = r.policy.delayMs (r.failures + 1)
            rw [next, BackoffPolicy.delayMs_succ]
            rfl
          have later := ih doubled made
          change pause = r.policy.delayMs (r.failures + 1 + k) at later
          rw [later]
          congr 1
          omega

end Retry

namespace BackoffPolicy

/-- **The delay of a retry and the pauses of a task are the doubled base delay, up to the cap.** For
every policy the delay before a retry is the exact product of the base with a power of two, or the
cap if that is smaller; computed in words it is the same, it never falls from one retry to the next,
and it never exceeds the cap. For every policy that is valid, doubling the pauses of a task one from
the other never overflows and gives the same delays, and these are the pauses that a task makes,
whatever its attempts come to. -/
theorem backoffs_agree (p : BackoffPolicy) :
    (∀ a, p.delay a = .ofMillis (min (p.baseDelayMs.toNat * 2 ^ a) p.maxDelayMs.toNat)) ∧
    (∀ a, p.delay a = .ofMillis (p.delayWord a).toNat) ∧
    Monotone p.delayMs ∧
    (∀ a, p.delayMs a ≤ p.maxDelayMs.toNat) ∧
    ∀ name, p.validate name = .ok () →
      (∀ k, p.pause? k = some (p.delay k)) ∧
      ∀ {α : Type} (attempts : Nat → Attempt α) (k pause : Nat),
        (Retry.run p attempts).pauses[k]? = some pause → Span.ofMillis pause = p.delay k := by
  refine ⟨fun a => ?_, fun a => ?_, p.monotone_delayMs, p.delayMs_le, fun name valid => ?_⟩
  · rw [delay, delayMs_eq]
  · rw [delay, toNat_delayWord]
  · have within := base_le_of_validate valid
    refine ⟨pause?_eq within, fun attempts k pause made => ?_⟩
    have first : (Retry.start p).pause = p.delayMs 0 := by
      rw [delayMs_eq, Nat.pow_zero, Nat.mul_one, Nat.min_eq_left within]
      rfl
    have tries := Retry.tries_tryFrom (Retry.start p) attempts Retry.notTried
    rw [tries.getElem?_pauses first made, delay]
    exact congrArg (fun k => Span.ofMillis (p.delayMs k)) (Nat.zero_add k)

/-- Four attempts that fail at once, with the cap between the second pause and the third. -/
theorem capped_after_two_pauses :
    let p : BackoffPolicy :=
      { maxRetries := 4, timeoutMs := 1000, baseDelayMs := 100, maxDelayMs := 300 }
    let failing : Nat → Attempt Unit := fun _ => ⟨0, .error (.retryTaskFailed "")⟩
    (Retry.run p failing).pauses = [100, 200, 300] ∧ p.delay 1 = .ofMillis 200 ∧
      p.pause? 2 = some (.ofMillis 300) ∧ p.delay 2 = .ofMillis 300 := by
  intro p failing
  have pauses : (Retry.run p failing).pauses = [100, 200, 300] := by
    simp [Retry.run, Retry.tryFrom, Retry.start, Retry.mayTry, Retry.outcome, Retry.failed,
      Retry.paused, Retry.limit, p, failing]
  obtain ⟨exact_, _, _, _, valid⟩ := backoffs_agree p
  obtain ⟨doubled, made⟩ := valid "list" rfl
  have second := made failing 1 200 (by rw [pauses]; rfl)
  have third := made failing 2 300 (by rw [pauses]; rfl)
  exact ⟨pauses, second.symm, (doubled 2).trans (congrArg some third.symm), third.symm⟩

end BackoffPolicy

end BugFeed
