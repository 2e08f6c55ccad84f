import BugFeed.Number.Binary64

/-!
# Numbers in text

Whole numbers with an optional sign, and floating-point numbers: digits with an optional sign, an
optional point before, among or after them and an optional exponent, or one of the words for
infinity and for no number, in any case.
-/

namespace BugFeed

set_option autoImplicit false

/-- The sign at the start of a text: whether it is a minus, and what follows it. -/
def splitSign : List Char → Bool × List Char
  | '-' :: cs => (true, cs)
  | '+' :: cs => (false, cs)
  | cs => (false, cs)

/-- The number that a text of digits only writes. -/
def readNat? (cs : List Char) : Option Nat :=
  if !cs.isEmpty && cs.all Char.isDigit then some (Text.digitsValue cs) else none

/-- The signed 64-bit number that a text writes. -/
def readInt64? (s : String) : Option Int := do
  let (negative, cs) := splitSign s.toList
  let n ← readNat? cs
  let value : Int := if negative then -n else n
  if Int64.minValue.toInt ≤ value ∧ value ≤ Int64.maxValue.toInt then some value else none

/-- The unsigned 64-bit number that a text writes. A minus is no part of one. -/
def readWord64? (s : String) : Option UInt64 := do
  let cs := match s.toList with
    | '+' :: cs => cs
    | cs => cs
  let n ← readNat? cs
  if n < UInt64.size then some (UInt64.ofNat n) else none

namespace Binary64

/-- Reads an exponent that is the rest of a text; none at all counts as zero. -/
def readExponent? : List Char → Option Int
  | [] => some 0
  | c :: cs =>
    if c = 'e' ∨ c = 'E' then do
      let (negative, cs) := splitSign cs
      let n ← readNat? cs
      some (if negative then -n else n)
    else none

/-- The number that digits with a point and an exponent write. -/
def readDecimal? (negative : Bool) (cs : List Char) : Option Binary64 := do
  let (whole, cs) := Text.spanDigits cs
  let (part, cs) := match cs with
    | '.' :: cs => Text.spanDigits cs
    | cs => ([], cs)
  if whole.isEmpty && part.isEmpty then none
  else
    let exponent ← readExponent? cs
    some (ofDecimal negative (Text.digitsValue (whole ++ part)) (exponent - part.length))

/-- The floating-point number that a text writes. -/
def read? (s : String) : Option Binary64 :=
  let (negative, cs) := splitSign s.toList
  let word := String.ofList (cs.map Char.toLower)
  if word = "inf" ∨ word = "infinity" then some (.infinite negative)
  else if word = "nan" then some .nan
  else readDecimal? negative cs

end Binary64

end BugFeed
