import BugFeed.Number.Written
import BugFeed.Settings.Setting

/-!
# Numbers in TOML

Whole numbers, also with another base, and floating-point numbers. Low lines may stand between two
digits.
-/

namespace BugFeed.Toml

set_option autoImplicit false

open Settings (Scalar)

/-! ## Digits -/

/-- The digits at the start of a text, without the low lines between them, and what follows. A low
line that no digit follows is no part of them. -/
def digitRun (isDigit : Char → Bool) : List Char → List Char × List Char
  | '_' :: c :: cs =>
    if isDigit c then
      let (ds, rest) := digitRun isDigit cs
      (c :: ds, rest)
    else ([], '_' :: c :: cs)
  | c :: cs =>
    if isDigit c then
      let (ds, rest) := digitRun isDigit cs
      (c :: ds, rest)
    else ([], c :: cs)
  | [] => ([], [])

/-- Reads digits of which there is at least one, the first without a low line before it. -/
def digits? (isDigit : Char → Bool) (cs : List Char) : Option (List Char × List Char) :=
  match cs with
  | c :: rest =>
    if isDigit c then
      let (ds, rest) := digitRun isDigit rest
      some (c :: ds, rest)
    else none
  | [] => none

/-- Reads the digits of a whole number. A zero stands alone. -/
def whole? (cs : List Char) : Option (List Char × List Char) :=
  match cs with
  | '0' :: rest => some (['0'], rest)
  | _ => digits? Char.isDigit cs

/-! ## Whole numbers -/

/-- A whole number within the range of signed 64-bit numbers. -/
def inRange (n : Int) : Option Scalar :=
  if Int64.minValue.toInt ≤ n ∧ n ≤ Int64.maxValue.toInt then some (.integer n) else none

/-- Reads the digits of a number to a base. -/
def based? (base : Nat) (isDigit : Char → Bool) (cs : List Char) :
    Option (Scalar × List Char) := do
  let (ds, cs) ← digits? isDigit cs
  let n := ds.foldl (fun n d => n * base + (Text.hexValue? d).getD 0) 0
  some (← inRange n, cs)

/-- Reads a whole number. Only one to the base ten has a sign. -/
def integer? (cs : List Char) : Option (Scalar × List Char) :=
  match cs with
  | '0' :: 'x' :: cs => based? 16 (fun c => (Text.hexValue? c).isSome) cs
  | '0' :: 'o' :: cs => based? 8 (fun c => c.isDigit && c ≤ '7') cs
  | '0' :: 'b' :: cs => based? 2 (fun c => c = '0' || c = '1') cs
  | _ => do
    let (negative, cs) := splitSign cs
    let (ds, cs) ← whole? cs
    let n : Int := Text.digitsValue ds
    some (← inRange (if negative then -n else n), cs)

/-! ## Floating-point numbers -/

/-- Reads the places after a point, if there is one. -/
def places? : List Char → Option (List Char × List Char)
  | '.' :: cs => digits? Char.isDigit cs
  | cs => some ([], cs)

/-- Reads an exponent, if there is one. -/
def exponent? (cs : List Char) : Option (Option Int × List Char) :=
  match cs with
  | c :: rest =>
    if c = 'e' ∨ c = 'E' then do
      let (negative, rest) := splitSign rest
      let (ds, rest) ← digits? Char.isDigit rest
      let n : Int := Text.digitsValue ds
      some (some (if negative then -n else n), rest)
    else some (none, cs)
  | [] => some (none, [])

/-- Reads a floating-point number that is written in digits. One above all others is none. -/
def decimal? (cs : List Char) : Option (Scalar × List Char) := do
  let (negative, cs) := splitSign cs
  let (whole, cs) ← whole? cs
  let (part, cs) ← places? cs
  let (power, cs) ← exponent? cs
  if part.isEmpty && power.isNone then none
  else
    let n := Text.digitsValue (whole ++ part)
    match Binary64.ofDecimal negative n (power.getD 0 - part.length) with
    | .infinite false => none
    | x => some (.float x, cs)

/-- Reads the word for infinity or for no number. -/
def special? (cs : List Char) : Option (Scalar × List Char) :=
  let (negative, cs) := splitSign cs
  match cs with
  | 'i' :: 'n' :: 'f' :: cs => some (.float (.infinite negative), cs)
  | 'n' :: 'a' :: 'n' :: cs => some (.float .nan, cs)
  | _ => none

/-! ## All of them -/

def number? (cs : List Char) : Option (Scalar × List Char) :=
  special? cs <|> decimal? cs <|> integer? cs

end BugFeed.Toml
