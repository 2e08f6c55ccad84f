import BugFeed.Text.Digits

/-!
# Binary floating-point numbers

Numbers of 53 binary digits, as settings and counters pass through them. A decimal is taken to the
nearest such number, a tie to the one with an even last digit. A number is taken to the nearest
64-bit natural number, a half away from zero and what lies outside to the nearest end. Its text is
the shortest decimal that is taken back to it, written without an exponent.

All of it is computed in exact natural numbers.
-/

namespace BugFeed

set_option autoImplicit false

/-- A binary floating-point number; a finite one is `mantissa * 2 ^ exponent`, and its mantissa
has 53 binary digits unless the exponent is the least one. -/
inductive Binary64 where
  | finite (negative : Bool) (mantissa : Nat) (exponent : Int)
  | infinite (negative : Bool)
  | nan
  deriving DecidableEq, Repr

namespace Binary64

/-- The least exponent. -/
def leastExponent : Int := -1074

/-- The greatest exponent. -/
def greatestExponent : Int := 971

/-- A power of two as numerator and denominator. -/
def powerRatio (base : Nat) (e : Int) : Nat × Nat :=
  if 0 ≤ e then (Nat.pow base e.toNat, 1) else (1, Nat.pow base e.natAbs)

/-- The quotient of two numbers, to the nearest and a tie to the even one. -/
def divEven (n d : Nat) : Nat :=
  let q := n / d
  let twice := 2 * (n % d)
  if d < twice ∨ (d = twice ∧ q % 2 = 1) then q + 1 else q

/-- The number nearest to a quotient of positive numbers. -/
def ofRatio (negative : Bool) (n d : Nat) : Binary64 :=
  let size : Int := (n.log2 : Int) - (d.log2 : Int)
  let scaled (e : Int) : Nat × Nat :=
    let (up, down) := powerRatio 2 e
    (n * down, d * up)
  let whole (e : Int) : Nat := (scaled e).1 / (scaled e).2
  let e := max leastExponent (if whole (size - 52) < Nat.pow 2 52 then size - 53 else size - 52)
  let m := divEven (scaled e).1 (scaled e).2
  let (m, e) := if m = Nat.pow 2 53 then (Nat.pow 2 52, e + 1) else (m, e)
  if greatestExponent < e then .infinite negative else .finite negative m e

/-- The number nearest to `n * 10 ^ exponent`. -/
def ofDecimal (negative : Bool) (n : Nat) (exponent : Int) : Binary64 :=
  let size : Int := (Nat.toDigits 10 n).length + exponent
  if n = 0 ∨ size < -330 then .finite negative 0 leastExponent
  else if 310 < size then .infinite negative
  else
    let (up, down) := powerRatio 10 exponent
    ofRatio negative (n * up) down

/-- The number nearest to a natural number. -/
def ofNat (n : Nat) : Binary64 := ofDecimal false n 0

def isInfinite : Binary64 → Bool
  | .infinite _ => true
  | .finite .. | .nan => false

def isZero : Binary64 → Bool
  | .finite _ m _ => m = 0
  | .infinite _ | .nan => false

def isNegative : Binary64 → Bool
  | .finite negative _ _ | .infinite negative => negative
  | .nan => false

/-- The number nearest to a product. Nothing times infinity is no number. -/
def mul (x y : Binary64) : Binary64 :=
  let negative := x.isNegative != y.isNegative
  match x, y with
  | .nan, _ | _, .nan => .nan
  | .finite _ m e, .finite _ n f =>
    let (up, down) := powerRatio 2 (e + f)
    if m * n = 0 then .finite negative 0 leastExponent else ofRatio negative (m * n * up) down
  | _, _ => if x.isZero || y.isZero then .nan else .infinite negative

/-- The nearest 64-bit natural number. -/
def toWord64 : Binary64 → UInt64
  | .nan => 0
  | .infinite negative => if negative then 0 else UInt64.ofNat (UInt64.size - 1)
  | .finite true _ _ => 0
  | .finite false m e =>
    let (up, down) := powerRatio 2 e
    UInt64.ofNat (min ((2 * (m * up) + down) / (2 * down)) (UInt64.size - 1))

/-- The first decimal grid, from coarse to fine, with a point that is taken back to
`m * 2 ^ e`: the point is the first number times ten to the second. -/
def shortestFrom (m : Nat) (e : Int) : (fuel : Nat) → (k : Int) → Nat × Int
  | 0, k => (0, k)
  | fuel + 1, k =>
    let (tenUp, tenDown) := powerRatio 10 k
    let (twoUp, twoDown) := powerRatio 2 (e - 2)
    let a := tenUp * twoDown
    let b := tenDown * twoUp
    let middle := 4 * m * b
    let low := (if m = Nat.pow 2 52 ∧ leastExponent < e then 4 * m - 1 else 4 * m - 2) * b
    let high := (4 * m + 2) * b
    let closed : Bool := m % 2 = 0
    let inside (d : Nat) : Bool :=
      if closed then low ≤ d * a && d * a ≤ high else low < d * a && d * a < high
    let d := middle / a
    match inside d, inside (d + 1) with
    | true, true => if middle - d * a < (d + 1) * a - middle then (d, k) else (d + 1, k)
    | true, false => (d, k)
    | false, true => (d + 1, k)
    | false, false => shortestFrom m e fuel (k - 1)

/-- The shortest decimal that is taken back to `m * 2 ^ e`, of several the nearest. No grid
finer than seventeen digits of the smallest number is needed. -/
def shortest (m : Nat) (e : Int) : Nat × Int := shortestFrom m e 660 309

/-- The text of `n * 10 ^ k` without an exponent. -/
def positional (n : Nat) (k : Int) : List Char :=
  let ds := Nat.toDigits 10 n
  if 0 ≤ k then ds ++ List.replicate k.toNat '0'
  else
    let places := k.natAbs
    let ds := List.replicate (places + 1 - ds.length) '0' ++ ds
    ds.take (ds.length - places) ++ '.' :: ds.drop (ds.length - places)

def display : Binary64 → String
  | .nan => "NaN"
  | .infinite negative => if negative then "-inf" else "inf"
  | .finite negative m e =>
    let (n, k) := if m = 0 then (0, 0) else shortest m e
    String.ofList ((if negative then ['-'] else []) ++ positional n k)

/-- The text of a number, with a point also if it is a whole one. -/
def displayWithPoint (x : Binary64) : String :=
  match x with
  | .finite .. => if x.display.toList.contains '.' then x.display else x.display ++ ".0"
  | _ => x.display

end Binary64

example : (Binary64.ofDecimal false 25005 (-1)).toWord64 = 2501 := by decide
example : (Binary64.ofDecimal false 1 30).toWord64 = 18446744073709551615 := by decide

end BugFeed
