/-!
# Waits

Whoever only waits for a number of milliseconds to pass never waits longer than thirty years. The
time that something else is given to happen in has no such bound: it runs out after its
milliseconds, however many they are.
-/

namespace BugFeed

set_option autoImplicit false

/-- The longest wait in milliseconds: thirty years of 365 days. -/
def longestWait : Nat := 30 * 365 * 24 * 60 * 60 * 1000

/-- When a wait of some milliseconds ends that begins now. -/
def waitEnd (now ms : Nat) : Nat := now + min ms longestWait

/-- A wait does not end before it begins. -/
theorem le_waitEnd (now ms : Nat) : now ≤ waitEnd now ms := Nat.le_add_right _ _

/-- A wait of thirty years at most takes its milliseconds. -/
theorem waitEnd_eq_add {now ms : Nat} (h : ms ≤ longestWait) : waitEnd now ms = now + ms := by
  rw [waitEnd, Nat.min_eq_left h]

end BugFeed
