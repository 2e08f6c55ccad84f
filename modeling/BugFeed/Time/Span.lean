import BugFeed.Text.Digits

/-!
# Lengths of time

A span is a whole number of seconds and a part of a second below one. Its text takes the largest
of the units second, millisecond, microsecond and nanosecond that does not exceed it, and as many
decimal places as are exact.
-/

namespace BugFeed

set_option autoImplicit false

/-- A length of time. -/
structure Span where
  seconds : Nat
  nanos : Nat
  deriving DecidableEq, Repr

namespace Span

def ofMillis (ms : Nat) : Span := ⟨ms / 1000, ms % 1000 * 1000000⟩

def toNanos (s : Span) : Nat := s.seconds * 1000000000 + s.nanos

/-- The decimal places of a fraction that is written with `width` digits, without the zeros at
its end. -/
def places (width fraction : Nat) : List Char :=
  ((Text.fixed width fraction).reverse.dropWhile (· == '0')).reverse

/-- A number of units with decimal places, and the unit. -/
def withUnit (whole width fraction : Nat) (unit : String) : String :=
  let decimals := places width fraction
  Text.decimal whole ++ (if decimals.isEmpty then "" else "." ++ String.ofList decimals) ++ unit

/-- The text of a length: `1.5s`, `250ms`, `120.034µs`, `0ns`. -/
def display (s : Span) : String :=
  if 0 < s.seconds then withUnit s.seconds 9 s.nanos "s"
  else if 1000000 ≤ s.nanos then withUnit (s.nanos / 1000000) 6 (s.nanos % 1000000) "ms"
  else if 1000 ≤ s.nanos then withUnit (s.nanos / 1000) 3 (s.nanos % 1000) "µs"
  else withUnit s.nanos 0 0 "ns"

end Span

end BugFeed
