import BugFeed.Text.Blank
import BugFeed.Time.Rfc3339

/-!
# Reading instants that others wrote

The relaxed form of an instant: fields may have fewer digits than usual, a year with a sign may
have any number of them, blanks may stand around every field, and the offset may also be `UTC` in
any case or have any run of colons and blanks between its hours and minutes. Every text of the
full written form is read back (`DateTime.displayFull`).
-/

namespace BugFeed.Relaxed

set_option autoImplicit false

open Text

/-- Reads a number of up to `limit` digits after any blanks. -/
def number (limit : Nat) (cs : List Char) : Option (Nat × List Char) :=
  readSome limit (skipBlanks cs)

/-- Reads a year: up to four digits, or a sign and any number of digits. -/
def year (cs : List Char) : Option (Int × List Char) :=
  match skipBlanks cs with
  | '-' :: cs => (readSome cs.length cs).map fun p => (-(p.1 : Int), p.2)
  | '+' :: cs => (readSome cs.length cs).map fun p => ((p.1 : Int), p.2)
  | cs => (readSome 4 cs).map fun p => ((p.1 : Int), p.2)

/-- Reads a character after any blanks. -/
def mark (c : Char) (cs : List Char) : Option (List Char) :=
  match skipBlanks cs with
  | d :: cs => if d = c then some cs else none
  | [] => none

/-- Reads a date that the calendar has. -/
def date (cs : List Char) : Option (Date × List Char) := do
  let (y, cs) ← year cs
  let cs ← mark '-' cs
  let (m, cs) ← number 2 cs
  let cs ← mark '-' cs
  let (d, cs) ← number 2 cs
  if (Date.mk y m d).Valid then some (⟨y, m, d⟩, cs) else none

/-- Reads the sign between a date and a time of day. -/
def separator : List Char → Option (List Char)
  | c :: cs => if c = 'T' ∨ c = 't' ∨ c = ' ' then some cs else none
  | [] => none

def clock (cs : List Char) : Option (Rfc3339.Clock × List Char) := do
  let (hour, cs) ← number 2 cs
  let cs ← mark ':' cs
  let (minute, cs) ← number 2 cs
  let cs ← mark ':' cs
  let (second, cs) ← number 2 cs
  let (nano, cs) ← match cs with
    | '.' :: cs => (Rfc3339.nanoseconds cs).toOption
    | _ => some (0, cs)
  let c ← Rfc3339.Clock.ofFields? hour minute second nano
  some (c, cs)

/-- Skips the colons and blanks between the hours and the minutes of an offset. -/
def colons (cs : List Char) : Except Rfc3339.Flaw (List Char) :=
  .ok (cs.dropWhile fun c => c == ':' || isBlank c)

/-- Reads an offset from universal time, in seconds. -/
def offset (cs : List Char) : Option (Int × List Char) :=
  match cs with
  | a :: b :: c :: rest =>
    if a.toUpper = 'U' ∧ b.toUpper = 'T' ∧ c.toUpper = 'C' then some (0, rest)
    else (Rfc3339.offset colons cs).toOption
  | _ => (Rfc3339.offset colons cs).toOption

/-- The instant that a text of the relaxed form denotes. -/
def read? (s : String) : Option Instant := do
  let (d, cs) ← date s.toList
  let cs ← separator cs
  let (c, cs) ← clock cs
  let (seconds, cs) ← offset (skipBlanks cs)
  if (skipBlanks cs).isEmpty ∧ seconds.natAbs < secondsPerDay then
    Instant.ofLocal? d c.second c.nano seconds
  else none

end BugFeed.Relaxed
