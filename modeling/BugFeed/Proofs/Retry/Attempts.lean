import Mathlib.Algebra.GroupWithZero.Nat
import Mathlib.Order.Basic
import BugFeed.Retry

/-!
# The attempts at a task

How often a task is tried depends on its first attempt that succeeds in time. With the attempts
before it, if the policy allows that many, it is the last one made, and what it gives is what the
task came to; else as many are made as the policy allows, and what remains is the fault of the last
one (`Tries.succeeds`, `Tries.exhausted`). Between two attempts there is one pause, and none after
the last one, so the task takes as long as its attempts and the pauses between them
(`Tries.length_pauses`, `Tries.spent`). The attempts come one after the other
(`Tries.pairwise_slots`).

All this is by induction on how the attempts went (`Tries`): none is allowed, or one succeeds, or
one fails and was the last one that is allowed, or one fails and after a pause the rest follow.
-/

namespace BugFeed

set_option autoImplicit false

/-- Whether an attempt succeeds within so many milliseconds. -/
def Attempt.Succeeds {α : Type} (limit : Nat) (a : Attempt α) (value : α) : Prop :=
  a.latency ≤ limit ∧ a.result = .ok value

namespace Retry

/-- An attempt that was made: when it began, when it ended, and what came of it. -/
structure Slot (α : Type) where
  begun : Nat
  ended : Nat
  outcome : Except Fault α

variable {α : Type}

/-- Whether an attempt fails or takes too long. -/
def Fails (r : Retry) (a : Attempt α) : Prop := ∃ fault, r.outcome a = .error fault

/-- The next attempts, so many of them, with the pauses between them. -/
def slots (r : Retry) (attempts : Nat → Attempt α) (now : Nat) : Nat → List (Slot α)
  | 0 => []
  | n + 1 =>
    let a := attempts r.failures
    ⟨now, now + r.given a, r.outcome a⟩ ::
      r.failed.paused.slots attempts (waitEnd (now + r.given a) r.pause) n

theorem outcome_eq_ok_iff {r : Retry} {a : Attempt α} {value : α} :
    r.outcome a = .ok value ↔ a.Succeeds r.limit value := by
  rw [outcome, Attempt.Succeeds]
  split <;> simp [*]

theorem fails_of_not_succeeds {r : Retry} {a : Attempt α}
    (failed : ∀ value, ¬a.Succeeds r.limit value) : r.Fails a := by
  cases outcome : r.outcome a with
  | ok value => exact absurd (outcome_eq_ok_iff.mp outcome) (failed value)
  | error fault => exact ⟨fault, outcome⟩

/-! ## How the attempts go -/

/-- How the attempts at a task go from the next one on, where `last` is the fault of the one
before. -/
inductive Tries (attempts : Nat → Attempt α) : Retry → Fault → Trial α → Prop where
  /-- None is allowed. -/
  | none {r : Retry} {last : Fault} (refused : r.mayTry = false) :
      Tries attempts r last ⟨.error last, 0, [], 0⟩
  /-- The next one succeeds. -/
  | success {r : Retry} {last : Fault} {value : α} (may : r.mayTry = true)
      (outcome : r.outcome (attempts r.failures) = .ok value) :
      Tries attempts r last ⟨.ok value, 1, [], r.given (attempts r.failures)⟩
  /-- The next one fails and is the last one that is allowed. -/
  | failure {r : Retry} {last fault : Fault} (may : r.mayTry = true)
      (outcome : r.outcome (attempts r.failures) = .error fault)
      (refused : r.failed.mayTry = false) :
      Tries attempts r last ⟨.error fault, 1, [], r.given (attempts r.failures)⟩
  /-- The next one fails, and after a pause the others follow. -/
  | again {r : Retry} {last fault : Fault} {rest : Trial α} (may : r.mayTry = true)
      (outcome : r.outcome (attempts r.failures) = .error fault)
      (more : r.failed.mayTry = true) (others : Tries attempts r.failed.paused fault rest) :
      Tries attempts r last
        ⟨rest.result, rest.attempts + 1, r.pause :: rest.pauses,
          waitEnd (r.given (attempts r.failures)) r.pause + rest.spent⟩

theorem mayTry_iff {r : Retry} : r.mayTry = true ↔ r.failures < r.policy.maxRetries.toNat := by
  rw [mayTry, decide_eq_true_eq]

theorem not_mayTry_iff {r : Retry} : r.mayTry = false ↔ r.policy.maxRetries.toNat ≤ r.failures := by
  rw [mayTry, decide_eq_false_iff_not, Nat.not_lt]

theorem tries_tryFrom (r : Retry) (attempts : Nat → Attempt α) (last : Fault) :
    Tries attempts r last (r.tryFrom attempts last) := by
  induction left : r.policy.maxRetries.toNat - r.failures generalizing r last with
  | zero =>
      have refused : r.mayTry = false := not_mayTry_iff.mpr (by omega)
      rw [tryFrom, dif_neg (by rw [refused]; exact Bool.false_ne_true)]
      exact .none refused
  | succ n ih =>
      have may : r.mayTry = true := mayTry_iff.mpr (by omega)
      rw [tryFrom, dif_pos may]
      cases outcome : r.outcome (attempts r.failures) with
      | ok value =>
          simp only [outcome]
          exact .success may outcome
      | error fault =>
          simp only [outcome]
          split
          · rename_i more
            refine .again may outcome more (ih r.failed.paused fault ?_)
            change r.policy.maxRetries.toNat - (r.failures + 1) = n
            omega
          · rename_i refused
            exact .failure may outcome (eq_false_of_ne_true refused)

namespace Tries

variable {attempts : Nat → Attempt α} {r : Retry} {last : Fault} {trial : Trial α}

theorem eq_of_not_mayTry (tries : Tries attempts r last trial) (refused : r.mayTry = false) :
    trial = ⟨.error last, 0, [], 0⟩ := by
  cases tries with
  | none => rfl
  | success may | failure may | again may => cases may.symm.trans refused

/-- The first attempt that succeeds ends the task, if the policy allows that many. -/
theorem succeeds (tries : Tries attempts r last trial) {i : Nat} {value : α}
    (failed : ∀ k < i, r.Fails (attempts (r.failures + k)))
    (succeeded : r.outcome (attempts (r.failures + i)) = .ok value) :
    trial.attempts = min (i + 1) (r.policy.maxRetries.toNat - r.failures) ∧
      (i < r.policy.maxRetries.toNat - r.failures → trial.result = .ok value) := by
  induction tries generalizing i with
  | none refused =>
      have nothing := not_mayTry_iff.mp refused
      exact ⟨by simp only; omega, fun less => by omega⟩
  | @success r last other may outcome =>
      obtain rfl : i = 0 := by
        by_contra later
        obtain ⟨fault, fails⟩ := failed 0 (Nat.pos_of_ne_zero later)
        cases fails.symm.trans outcome
      have first := mayTry_iff.mp may
      refine ⟨by simp only; omega, fun _ => ?_⟩
      exact outcome.symm.trans succeeded
  | @failure r last fault may outcome refused =>
      have first := mayTry_iff.mp may
      have final : r.policy.maxRetries.toNat ≤ r.failures + 1 := not_mayTry_iff.mp refused
      refine ⟨by simp only; omega, fun less => ?_⟩
      obtain rfl : i = 0 := by omega
      cases outcome.symm.trans succeeded
  | @again r last fault rest may outcome more _ ih =>
      have next : r.failures + 1 < r.policy.maxRetries.toNat := mayTry_iff.mp more
      cases i with
      | zero => cases outcome.symm.trans succeeded
      | succ i =>
          have shift (k : Nat) : r.failed.paused.failures + k = r.failures + (k + 1) := by
            change r.failures + 1 + k = _
            omega
          obtain ⟨count, result⟩ := @ih i (fun k less => shift k ▸ failed (k + 1) (by omega))
            (shift i ▸ succeeded)
          have left : r.failed.paused.policy.maxRetries.toNat - r.failed.paused.failures =
              r.policy.maxRetries.toNat - (r.failures + 1) := rfl
          rw [left] at count result
          exact ⟨by simp only [count]; omega, fun less => result (by omega)⟩

/-- A task of which no attempt succeeds is tried as often as the policy allows, and what remains is
the fault of the last attempt. -/
theorem exhausted (tries : Tries attempts r last trial)
    (failed : ∀ k, r.failures ≤ k → k < r.policy.maxRetries.toNat → r.Fails (attempts k)) :
    trial.attempts = r.policy.maxRetries.toNat - r.failures ∧
      (r.policy.maxRetries.toNat ≤ r.failures → trial.result = .error last) ∧
      ∀ k, r.failures ≤ k → r.policy.maxRetries.toNat = k + 1 →
        ∃ fault, r.outcome (attempts k) = .error fault ∧ trial.result = .error fault := by
  induction tries with
  | none refused =>
      have nothing := not_mayTry_iff.mp refused
      exact ⟨by simp only; omega, fun _ => rfl, fun k before last => by omega⟩
  | @success r last value may outcome =>
      obtain ⟨fault, fails⟩ := failed r.failures (Nat.le_refl _) (mayTry_iff.mp may)
      cases fails.symm.trans outcome
  | @failure r last fault may outcome refused =>
      have first := mayTry_iff.mp may
      have final : r.policy.maxRetries.toNat ≤ r.failures + 1 := not_mayTry_iff.mp refused
      refine ⟨by simp only; omega, fun none => by omega, fun k before last => ?_⟩
      obtain rfl : k = r.failures := by omega
      exact ⟨fault, outcome, rfl⟩
  | @again r last fault rest may outcome more _ ih =>
      have next : r.failures + 1 < r.policy.maxRetries.toNat := mayTry_iff.mp more
      obtain ⟨count, _, fault⟩ := ih fun k later => failed k (Nat.le_of_succ_le later)
      have left : r.failed.paused.policy.maxRetries.toNat - r.failed.paused.failures =
          r.policy.maxRetries.toNat - (r.failures + 1) := rfl
      rw [left] at count
      refine ⟨by simp only [count]; omega, fun none => by omega, fun k before last => ?_⟩
      exact fault k (show r.failures + 1 ≤ k by omega) last

/-- There is one pause between two attempts and none after the last one. -/
theorem length_pauses (tries : Tries attempts r last trial) :
    trial.pauses.length = trial.attempts - 1 ∧ (r.mayTry = true → 0 < trial.attempts) := by
  induction tries with
  | none refused => exact ⟨rfl, fun may => absurd (may.symm.trans refused) (by decide)⟩
  | success | failure => exact ⟨rfl, fun _ => Nat.one_pos⟩
  | again _ _ more _ ih =>
      have others := ih.2 more
      refine ⟨?_, fun _ => Nat.succ_pos _⟩
      simp only [List.length_cons, ih.1]
      omega

/-- A task takes as long as its attempts are given and the pauses take. -/
theorem spent (tries : Tries attempts r last trial) :
    trial.spent =
      ((List.range' r.failures trial.attempts).map fun k => r.given (attempts k)).sum +
        (trial.pauses.map fun pause => min pause longestWait).sum := by
  induction tries with
  | none | success | failure => simp
  | @again r last fault rest _ _ _ _ ih =>
      have others : (fun k => r.failed.paused.given (attempts k)) = fun k => r.given (attempts k) :=
        rfl
      have next : r.failed.paused.failures = r.failures + 1 := rfl
      simp only [others, next] at ih
      simp only [List.range'_succ, List.map_cons, List.sum_cons, ih, waitEnd]
      omega

/-- The attempts come one after the other, the first one at once, and the last one ends when the
task does. -/
theorem pairwise_slots (tries : Tries attempts r last trial) (now : Nat) :
    (r.slots attempts now trial.attempts).Pairwise (fun a b => a.ended ≤ b.begun) ∧
      (∀ slot ∈ r.slots attempts now trial.attempts, now ≤ slot.begun) ∧
      ∀ slot ∈ (r.slots attempts now trial.attempts).getLast?,
        slot.ended = now + trial.spent := by
  induction tries generalizing now with
  | none => exact ⟨.nil, nofun, nofun⟩
  | @success r | @failure r =>
      refine ⟨List.pairwise_singleton _ _, ?_, ?_⟩
      · intro slot member
        exact Nat.le_of_eq (congrArg Slot.begun (List.mem_singleton.mp member).symm)
      · intro slot final
        cases final
        rfl
  | @again r last fault rest _ _ more others ih =>
      obtain ⟨apart, after, final⟩ := ih (waitEnd (now + r.given (attempts r.failures)) r.pause)
      have onward := le_waitEnd (now + r.given (attempts r.failures)) r.pause
      refine ⟨List.pairwise_cons.mpr ⟨fun slot member =>
        Nat.le_trans onward (after slot member), apart⟩, ?_, ?_⟩
      · intro slot member
        rcases List.mem_cons.mp member with rfl | member
        · exact Nat.le_refl _
        · exact Nat.le_trans (Nat.le_add_right _ _) (Nat.le_trans onward (after slot member))
      · intro slot member
        obtain ⟨n, count⟩ := Nat.exists_eq_add_one_of_ne_zero
          (Nat.pos_iff_ne_zero.mp (others.length_pauses.2 more))
        have ended := final slot (by
          simp only [slots, count] at member ⊢
          rwa [List.getLast?_cons_cons] at member)
        rw [ended]
        simp only [waitEnd]
        omega

end Tries

theorem length_slots (r : Retry) (attempts : Nat → Attempt α) (now n : Nat) :
    (r.slots attempts now n).length = n := by
  induction n generalizing r now with
  | zero => rfl
  | succ n ih => exact congrArg (· + 1) (ih _ _)

/-- The first attempt begins at once. -/
theorem begun_of_head {r : Retry} {attempts : Nat → Attempt α} {now n : Nat} {slot : Slot α}
    (first : slot ∈ (r.slots attempts now n).head?) : slot.begun = now := by
  cases n with
  | zero => cases first
  | succ n =>
      cases first
      rfl

/-- What is known of each attempt that was made. -/
theorem getElem?_slots {r : Retry} {attempts : Nat → Attempt α} {now n k : Nat} {slot : Slot α}
    (made : (r.slots attempts now n)[k]? = some slot) :
    slot.ended = slot.begun + r.given (attempts (r.failures + k)) ∧
      slot.outcome = r.outcome (attempts (r.failures + k)) := by
  induction n generalizing r now k with
  | zero => cases made
  | succ n ih =>
      cases k with
      | zero =>
          cases made
          exact ⟨rfl, rfl⟩
      | succ k =>
          have known := ih made
          have same : r.failed.paused.failures + k = r.failures + (k + 1) := by
            change r.failures + 1 + k = _
            omega
          rwa [same] at known

end Retry

end BugFeed
