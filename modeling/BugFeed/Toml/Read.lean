import BugFeed.Toml.Date
import BugFeed.Toml.Number

/-!
# Reading TOML

A text is read into statements, one to a line, and the statements build the document. A text that
is not TOML, or whose statements contradict each other, gives none.
-/

namespace BugFeed.Toml

set_option autoImplicit false

open Settings (Setting Entries Items Scalar)

/-! ## Keys -/

/-- Whether a character may stand in a key without quotes. -/
def inKey (c : Char) : Bool := c.isAlphanum || c == '_' || c == '-'

def key? (cs : List Char) : Found String :=
  match cs with
  | '"' :: _ => line? cs
  | '\'' :: _ => line? cs
  | _ =>
    let name := cs.takeWhile inKey
    if name.isEmpty then none else some (String.ofList name, cs.dropWhile inKey)

/-- As many keys are joined by points at most. -/
def mostKeys : Nat := 79

/-- Reads keys joined by points, with blanks around them: those before the last one, and the
last. -/
def keysUpTo? : (fuel : Nat) → List Char → Found (List String × String)
  | 0, _ => none
  | fuel + 1, cs =>
    match key? (skipBlanks cs) with
    | none => none
    | some (key, cs) =>
      match skipBlanks cs with
      | '.' :: cs =>
        (keysUpTo? fuel cs).map fun ((keys, last), cs) => ((key :: keys, last), cs)
      | cs => some (([], key), cs)

def keys? (cs : List Char) : Found (List String × String) := keysUpTo? mostKeys cs

/-! ## Values -/

/-- The text after a comment, if it begins with one. -/
def afterComment? : List Char → Option (List Char)
  | '#' :: cs => some (cs.dropWhile inLine)
  | _ => none

/-- The text after blanks, line breaks and comments, from within a comment or not. A comment ends
with its line. -/
def skipTrivia (inComment : Bool) : List Char → List Char
  | '\n' :: cs => skipTrivia false cs
  | '\r' :: '\n' :: cs => skipTrivia false cs
  | c :: cs =>
    if inComment then if inLine c then skipTrivia true cs else c :: cs
    else if c = '#' then skipTrivia true cs
    else if c = ' ' ∨ c = '\t' then skipTrivia false cs
    else c :: cs
  | [] => []

/-- The text after blanks, line breaks and comments. -/
def skipAll (cs : List Char) : List Char := skipTrivia false cs

/-- Reads the items of a list that is not empty, with its closing bracket. -/
def items? (value? : List Char → Found (Setting Origin)) :
    (fuel : Nat) → List Char → Found (Items Origin)
  | 0, _ => none
  | fuel + 1, cs =>
    match value? cs with
    | none => none
    | some (v, cs) =>
      match skipAll cs with
      | ']' :: cs => some (.more v .done, cs)
      | ',' :: cs =>
        match skipAll cs with
        | ']' :: cs => some (.more v .done, cs)
        | cs => (items? value? fuel cs).map fun (vs, cs) => (.more v vs, cs)
      | _ => none

def assignment? (value? : List Char → Found (Setting Origin)) (cs : List Char) :
    Found ((List String × String) × Setting Origin) :=
  match keys? cs with
  | some (keys, '=' :: cs) => (value? (skipBlanks cs)).map fun (v, cs) => ((keys, v), cs)
  | _ => none

/-- Reads the entries of a table that is written as a value and not empty, with its closing
brace. -/
def entries? (value? : List Char → Found (Setting Origin)) :
    (fuel : Nat) → Table → List Char → Found Table
  | 0, _, _ => none
  | fuel + 1, table, cs =>
    match assignment? value? cs with
    | none => none
    | some (((keys, key), v), cs) =>
      match assignAt keys key v table with
      | none => none
      | some table =>
        match skipBlanks cs with
        | '\x7d' :: cs => some (table, cs)
        | ',' :: cs => entries? value? fuel table cs
        | _ => none

/-- Lists and tables within values are this deep at most. -/
def deepest : Nat := 79

/-- Reads a truth value, a text or a number. -/
def scalar? (cs : List Char) : Found Scalar :=
  match cs with
  | '"' :: _ => (text? cs).map fun (s, cs) => (.text s, cs)
  | '\'' :: _ => (text? cs).map fun (s, cs) => (.text s, cs)
  | 't' :: 'r' :: 'u' :: 'e' :: cs => some (.truth true, cs)
  | 'f' :: 'a' :: 'l' :: 's' :: 'e' :: cs => some (.truth false, cs)
  | _ => number? cs

def single? (cs : List Char) : Found (Setting Origin) :=
  match moment? cs with
  | some (date, cs) => some (.leaf .dated (.text date), cs)
  | none => (scalar? cs).map fun (v, cs) => (.leaf .closed v, cs)

/-- Reads a value in which lists and tables are `depth` deep at most. -/
def valueWithin? : (depth : Nat) → List Char → Found (Setting Origin)
  | 0, cs => single? cs
  | depth + 1, cs =>
    match cs with
    | '[' :: cs =>
      match skipAll cs with
      | ']' :: cs => some (.list .closed .done, cs)
      | cs =>
        (items? (valueWithin? depth) (cs.length + 1) cs).map fun (vs, cs) =>
          (.list .closed vs, cs)
    | '\x7b' :: cs =>
      match skipBlanks cs with
      | '\x7d' :: cs => some (.table .closed .done, cs)
      | cs =>
        (entries? (valueWithin? depth) (cs.length + 1) (.opened, .done) cs).map
          fun (table, cs) => (.table .closed table.2, cs)
    | _ => single? cs

def value? (cs : List Char) : Found (Setting Origin) := valueWithin? deepest cs

/-! ## Statements -/

def statement? (cs : List Char) : Found Statement :=
  match cs with
  | '[' :: '[' :: cs =>
    match keys? cs with
    | some ((keys, key), ']' :: ']' :: cs) => some (.nextHead keys key, cs)
    | _ => none
  | '[' :: cs =>
    match keys? cs with
    | some ((keys, key), ']' :: cs) => some (.head keys key, cs)
    | _ => none
  | _ => (assignment? value? cs).map fun (((keys, key), v), cs) => (.value keys key v, cs)

/-- The text after the end of a line: blanks, a comment, and a break or the end of the text. -/
def endOfLine? (cs : List Char) : Option (List Char) :=
  let cs := skipBlanks cs
  match (afterComment? cs).getD cs with
  | [] => some []
  | cs => lineBreak? cs

/-- Reads lines onto a document. Each line takes a character at least. -/
def lines? : (fuel : Nat) → Draft → List Char → Option Draft
  | 0, d, _ => some d
  | fuel + 1, d, cs =>
    match skipBlanks cs with
    | [] => some d
    | cs =>
      match endOfLine? cs with
      | some cs => lines? fuel d cs
      | none => do
        let (s, cs) ← statement? cs
        let d ← d.add s
        lines? fuel d (← endOfLine? cs)

/-- The text after the mark of byte order, if it begins with one. -/
def skipMark : List Char → List Char
  | '\ufeff' :: cs => cs
  | cs => cs

/-- The table that a text writes, if it is TOML. A document is no date. -/
def read? (s : String) : Option (Entries Origin) := do
  let d ← lines? (s.length + 1) .blank (skipMark s.toList)
  match ← datedTree? d.root.toTree with
  | .table _ entries => some entries
  | .leaf _ _ | .list _ _ => none

end BugFeed.Toml
