import BugFeed.Time.Instant

/-!
# Reading RFC 3339 instants

The strict form: a four-digit year, two digits for every other field, the fixed separators
between them, and an offset from universal time. The date and the time of day are separated by
`T`, `t` or one space; the second may have decimal places, of which nine count; the offset is `Z`,
`z` or a sign, two digits, a colon and two digits, where the minus sign may also be the
mathematical one.

A text that is not an instant has a first flaw, and `read` reports that one. A whole date is read
before it is checked against the calendar, a whole time of day before it is checked against the
clock, and an offset of a day or more is found last.
-/

namespace BugFeed.Rfc3339

set_option autoImplicit false

open Text

/-- What is wrong with a text that should be an instant. -/
inductive Flaw where
  /-- A character that cannot stand where it stands. -/
  | invalid
  /-- The text ends before the instant does. -/
  | tooShort
  /-- The text goes on after the instant. -/
  | tooLong
  /-- A field that the calendar or the clock does not have. -/
  | outOfRange
  deriving DecidableEq, Repr

def Flaw.message : Flaw → String
  | .invalid => "input contains invalid characters"
  | .tooShort => "premature end of input"
  | .tooLong => "trailing input"
  | .outOfRange => "input is out of range"

/-- The fewest bytes of a date and a time of day. -/
def shortest : Nat := 19

def number (width : Nat) (cs : List Char) : Except Flaw (Nat × List Char) :=
  match readFixed width cs with
  | some p => .ok p
  | none => .error .invalid

/-- Reads one of the characters that satisfy `p`. -/
def mark (p : Char → Bool) : List Char → Except Flaw (List Char)
  | c :: cs => if p c then .ok cs else .error .invalid
  | [] => .error .invalid

/-- Reads a date and checks it against the calendar. -/
def date (cs : List Char) : Except Flaw (Date × List Char) := do
  let (year, cs) ← number 4 cs
  let cs ← mark (· == '-') cs
  let (month, cs) ← number 2 cs
  let cs ← mark (· == '-') cs
  let (day, cs) ← number 2 cs
  let d : Date := ⟨year, month, day⟩
  if d.Valid then pure (d, cs) else throw .outOfRange

/-- Reads the decimal places of a second as nanoseconds; places after the ninth are dropped. -/
def nanoseconds (cs : List Char) : Except Flaw (Nat × List Char) :=
  match takeDigits 9 cs with
  | ([], []) => .error .tooShort
  | ([], _ :: _) => .error .invalid
  | (ds, rest) =>
    .ok (digitsValue ds * Nat.pow 10 (9 - ds.length), rest.dropWhile Char.isDigit)

/-- A time of day: the second it lies in and the nanoseconds into that second. -/
structure Clock where
  second : Nat
  nano : Nat
  deriving DecidableEq, Repr

/-- The time of day that a clock shows. Second sixty is the leap second after second
fifty-nine. -/
def Clock.ofFields? (hour minute second nano : Nat) : Option Clock :=
  if hour < 24 ∧ minute < 60 ∧ second ≤ 60 then
    if second = 60 then some ⟨hour * 3600 + minute * 60 + 59, nano + nanosPerSecond⟩
    else some ⟨hour * 3600 + minute * 60 + second, nano⟩
  else none

/-- Reads a time of day and checks it against the clock. -/
def clock (cs : List Char) : Except Flaw (Clock × List Char) := do
  let (hour, cs) ← number 2 cs
  let cs ← mark (· == ':') cs
  let (minute, cs) ← number 2 cs
  let cs ← mark (· == ':') cs
  let (second, cs) ← number 2 cs
  let (nano, cs) ← match cs with
    | '.' :: cs => nanoseconds cs
    | _ => pure (0, cs)
  match Clock.ofFields? hour minute second nano with
  | some c => pure (c, cs)
  | none => throw .outOfRange

/-- The bytes of the first two characters of a text. -/
def bytesOfTwo (cs : List Char) : Nat := (cs.take 2).foldr (fun c n => c.utf8Size + n) 0

/-- The mathematical minus sign. -/
def minusSign : Char := '\u2212'

/-- Reads hours and minutes of an offset after its sign, in seconds. The separator between them
is read by `separator`. -/
def offsetFields (separator : List Char → Except Flaw (List Char)) (cs : List Char) :
    Except Flaw (Nat × List Char) := do
  if bytesOfTwo cs < 2 then throw .tooShort
  let (hours, cs) ← number 2 cs
  let cs ← separator cs
  if bytesOfTwo cs < 2 then throw .tooShort
  let (minutes, cs) ← number 2 cs
  if minutes < 60 then pure (hours * 3600 + minutes * 60, cs) else throw .outOfRange

/-- Reads an offset from universal time, in seconds. -/
def offset (separator : List Char → Except Flaw (List Char)) :
    List Char → Except Flaw (Int × List Char)
  | [] => .error .tooShort
  | c :: cs =>
    if c = 'Z' ∨ c = 'z' then .ok (0, cs)
    else if c = '+' then do
      let (seconds, cs) ← offsetFields separator cs
      pure ((seconds : Int), cs)
    else if c = '-' ∨ c = minusSign then do
      let (seconds, cs) ← offsetFields separator cs
      pure (-(seconds : Int), cs)
    else .error .invalid

/-- Reads the colon between the hours and the minutes of an offset. -/
def colon : List Char → Except Flaw (List Char)
  | [] => .error .tooShort
  | c :: cs => if c = ':' then .ok cs else .error .invalid

/-- The instant that a text of the strict form denotes. -/
def read (s : String) : Except Flaw Instant := do
  if s.utf8ByteSize < shortest then throw .tooShort
  let (d, cs) ← date s.toList
  let cs ← mark (fun c => c == 'T' || c == 't' || c == ' ') cs
  let (c, cs) ← clock cs
  let (seconds, cs) ← offset colon cs
  if !cs.isEmpty then throw .tooLong
  if secondsPerDay ≤ seconds.natAbs then throw .outOfRange
  match Instant.ofLocal? d c.second c.nano seconds with
  | some t => pure t
  | none => throw .outOfRange

end BugFeed.Rfc3339
