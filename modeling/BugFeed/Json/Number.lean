import BugFeed.Json.Tree
import BugFeed.Number.Binary64

/-!
# Numbers in JSON text

Only integers have a value here, but any number is read with care for its size: a number that
becomes infinite as a float is none. The float is computed by two roundings. As many digits as 64
bits hold become a significand, which is rounded; the power of ten that remains is rounded too, and
so is their product. Some decimals just above the greatest float, which the nearest float would
still stand for, are therefore too large.
-/

namespace BugFeed.Json

set_option autoImplicit false

open Text

/-! ## Size -/

/-- The first number that 64 bits do not hold. -/
def significandBound : Nat := UInt64.size

/-- Takes digits onto a significand as long as 64 bits hold it, and the digits that are left. -/
def takeSignificand (n : Nat) : List Char → Nat × List Char
  | [] => (n, [])
  | d :: ds =>
    let next := n * 10 + digitsValue [d]
    if next < significandBound then takeSignificand next ds else (n, d :: ds)

/-- Whether a significand times a power of ten is infinite as a float. No power below the one named
here makes a number of 64 bits so large, and every power above the second one does. -/
def isInfinite (significand : Nat) (power : Int) : Bool :=
  significand ≠ 0 && 289 ≤ power &&
    (308 < power || ((Binary64.ofNat significand).mul (.ofDecimal false 1 power)).isInfinite)

/-- Whether the number of these digits before the point, digits after it and exponent is infinite
as a float. Digits before the point that the significand does not hold raise the power of ten;
those after the point are dropped, with all that follow them. -/
def exceedsFloats (whole part : List Char) (power : Int) : Bool :=
  let (n, dropped) := takeSignificand 0 whole
  let (n, ignored) := takeSignificand n part
  isInfinite n (dropped.length - (part.length - ignored.length : Nat) + power)

/-! ## Reading -/

/-- The problem of a text in which a digit should stand. -/
def noDigit : List Char → Problem
  | [] => .ended
  | _ :: _ => .malformed

/-- Reads a run of at least one digit. -/
def digits (cs : List Char) : Except Problem (List Char × List Char) :=
  match spanDigits cs with
  | ([], rest) => .error (noDigit rest)
  | (ds, rest) => .ok (ds, rest)

/-- Reads the digits before the point. A zero stands alone. -/
def wholeDigits (cs : List Char) : Except Problem (List Char × List Char) :=
  match cs with
  | '0' :: rest =>
    match rest with
    | c :: _ => if c.isDigit then .error .malformed else .ok (['0'], rest)
    | [] => .ok (['0'], [])
  | _ => digits cs

/-- Reads the digits after the point, if there is one. -/
def places (cs : List Char) : Except Problem (List Char × List Char) :=
  match cs with
  | '.' :: rest => digits rest
  | _ => .ok ([], cs)

/-- Reads an exponent, if there is one. -/
def exponent (cs : List Char) : Except Problem (Option Int × List Char) :=
  match cs with
  | c :: rest =>
    if c = 'e' ∨ c = 'E' then
      let (negative, rest) := match rest with
        | '-' :: rest => (true, rest)
        | '+' :: rest => (false, rest)
        | _ => (false, rest)
      match digits rest with
      | .ok (ds, rest) =>
        let n : Int := digitsValue ds
        .ok (some (if negative then -n else n), rest)
      | .error p => .error p
    else .ok (none, cs)
  | [] => .ok (none, [])

/-- The number of a sign, digits before and after the point and an exponent. -/
def Number.ofDigits (negative : Bool) (whole part : List Char) (power : Option Int) : Number :=
  if exceedsFloats whole part (power.getD 0) then .tooLarge
  else if !part.isEmpty || power.isSome then .other
  else if negative then
    if digitsValue whole = 0 then .other else .integer (-(digitsValue whole : Int))
  else .integer (digitsValue whole)

def number (cs : List Char) : Except Problem (Number × List Char) := do
  let (negative, cs) := match cs with
    | '-' :: cs => (true, cs)
    | _ => (false, cs)
  let (whole, cs) ← wholeDigits cs
  let (part, cs) ← places cs
  let (power, cs) ← exponent cs
  pure (.ofDigits negative whole part power, cs)

end BugFeed.Json
