import BugFeed.Time.Calendar
import BugFeed.Toml.Document
import BugFeed.Toml.Text

/-!
# Dates in TOML

Dates with or without a time, and times. A date is kept as its text, with the letter T before the
time and no zeros at the end of a fraction.

There are two ways to write a date. It may stand without quotes where a value can stand. It may
also be a table whose first key is the mark of dates: the text under that key is then the date,
and all other keys of the table are without meaning. Such a text has to be a date as a whole, where
a date without quotes ends before a time or an offset that cannot be read.
-/

namespace BugFeed.Toml

set_option autoImplicit false

open Settings (Setting Items Entries)

/-! ## Parts of dates -/

/-- Reads a number of two digits that is at most `most`. -/
def two? (most : Nat) (cs : List Char) : Option (Nat × List Char) := do
  let (n, cs) ← Text.readFixed 2 cs
  if n ≤ most then some (n, cs) else none

/-- The text after a character that it has to begin with. -/
def after? (c : Char) : List Char → Option (List Char)
  | d :: cs => if d = c then some cs else none
  | [] => none

def day? (cs : List Char) : Option (List Char × List Char) := do
  let (year, cs) ← Text.readFixed 4 cs
  let (month, cs) ← two? 12 (← after? '-' cs)
  let (day, cs) ← two? (daysInMonth year month) (← after? '-' cs)
  if month = 0 ∨ day = 0 then none
  else some (Text.fixed 4 year ++ '-' :: Text.fixed 2 month ++ '-' :: Text.fixed 2 day, cs)

/-- Reads the fraction of a second, if there is one. Nine places of it are kept. -/
def fraction? : List Char → Found (List Char)
  | '.' :: cs =>
    match Text.spanDigits cs with
    | ([], _) => none
    | (ds, cs) =>
      let kept := ((ds.take 9).reverse.dropWhile (· == '0')).reverse
      some (if kept.isEmpty then [] else '.' :: kept, cs)
  | cs => some ([], cs)

def time? (cs : List Char) : Option (List Char × List Char) := do
  let (hour, cs) ← two? 23 cs
  let (minute, cs) ← two? 59 (← after? ':' cs)
  let (second, cs) ← two? 60 (← after? ':' cs)
  let (fraction, cs) ← fraction? cs
  some (Text.fixed 2 hour ++ ':' :: Text.fixed 2 minute ++ ':' :: Text.fixed 2 second ++ fraction,
    cs)

/-- Reads an offset from universal time; an offset of nothing is written with a plus. -/
def offset? (sign : Char) (cs : List Char) : Option (List Char × List Char) := do
  let (hour, cs) ← two? 23 cs
  let (minute, cs) ← two? 59 (← after? ':' cs)
  let sign := if hour = 0 ∧ minute = 0 then '+' else sign
  some (sign :: Text.fixed 2 hour ++ ':' :: Text.fixed 2 minute, cs)

/-- Whether a character can stand between a day and a time. -/
def separates (c : Char) : Bool := c == 'T' || c == 't' || c == ' '

/-- Whether a character stands for universal time. -/
def isUniversal (c : Char) : Bool := c == 'Z' || c == 'z'

/-- Whether a character begins an offset. -/
def isSign (c : Char) : Bool := c == '+' || c == '-'

/-! ## Dates without quotes -/

/-- Reads an offset from universal time, if there is one. -/
def zone (cs : List Char) : List Char × List Char :=
  match cs with
  | c :: rest =>
    if isUniversal c then (['Z'], rest)
    else if isSign c then (offset? c rest).getD ([], cs)
    else ([], cs)
  | [] => ([], [])

/-- Reads the time after a day, if there is one. -/
def timeOfDay (cs : List Char) : List Char × List Char :=
  match cs with
  | c :: rest =>
    if separates c then
      match time? rest with
      | some (time, rest) =>
        let (zone, rest) := zone rest
        ('T' :: time ++ zone, rest)
      | none => ([], cs)
    else ([], cs)
  | [] => ([], [])

/-- Reads a day with or without a time, or a time. -/
def moment? (cs : List Char) : Found String :=
  match day? cs with
  | some (day, cs) =>
    let (time, cs) := timeOfDay cs
    some (String.ofList (day ++ time), cs)
  | none => (time? cs).map fun (time, cs) => (String.ofList time, cs)

/-! ## Dates in tables -/

/-- The key that marks a table as a date. -/
def dateKey : String := "$__toml_private_datetime"

/-- What was read, if nothing follows it. -/
def complete? {α : Type} : Found α → Option α
  | some (a, []) => some a
  | _ => none

/-- The offset that a whole text writes; none at all is one too. -/
def wholeZone? : List Char → Option (List Char)
  | [] => some []
  | c :: cs =>
    if isUniversal c then complete? (some (['Z'], cs))
    else if isSign c then complete? (offset? c cs)
    else none

/-- The date that a whole text writes. -/
def dateOf? (s : String) : Option String :=
  match day? s.toList with
  | some (day, []) => some (String.ofList day)
  | some (day, c :: cs) =>
    if separates c then do
      let (time, cs) ← time? cs
      let zone ← wholeZone? cs
      some (String.ofList (day ++ 'T' :: time ++ zone))
    else none
  | none => (complete? (time? s.toList)).map String.ofList

mutual

/-- The tree with dates for the tables that are marked as such; none if one of them holds no
date. -/
def datedTree? : Setting Origin → Option (Setting Origin)
  | .leaf origin value => some (.leaf origin value)
  | .list origin items => (datedItems? items).map (.list origin)
  | .table origin .done => some (.table origin .done)
  | .table origin (.more key value tail) =>
    if key = dateKey then
      match value with
      | .leaf .closed (.text s) => (dateOf? s).map fun date => .leaf .dated (.text date)
      | _ => none
    else do
      let value ← datedTree? value
      let tail ← datedEntries? tail
      some (.table origin (.more key value tail))

/-- The items with dates for the tables that are marked as such. -/
def datedItems? : Items Origin → Option (Items Origin)
  | .done => some .done
  | .more head tail => do
    let head ← datedTree? head
    let tail ← datedItems? tail
    some (.more head tail)

/-- The entries with dates for the tables that are marked as such. -/
def datedEntries? : Entries Origin → Option (Entries Origin)
  | .done => some .done
  | .more key value tail => do
    let value ← datedTree? value
    let tail ← datedEntries? tail
    some (.more key value tail)

end

end BugFeed.Toml
