import BugFeed.Text.Digits

/-!
# Texts in TOML

Between one pair of quotes a text has one line, between three pairs any number of them; a line
break right after the opening quotes is no part of it. Double quotes allow escapes, single quotes
take every character as it is.
-/

namespace BugFeed.Toml

set_option autoImplicit false

/-- What a reader finds at the start of a text, and what follows it; none if that is not TOML. -/
abbrev Found (α : Type) := Option (α × List Char)

/-- Whether a character may stand in a line: every one but those that control a device. A
tabulator is no such one. -/
def inLine (c : Char) : Bool := c = '\t' || (32 ≤ c.toNat && c.toNat ≠ 127)

def skipBlanks (cs : List Char) : List Char := cs.dropWhile fun c => c == ' ' || c == '\t'

/-- The text after a line break, if it begins with one. -/
def lineBreak? : List Char → Option (List Char)
  | '\n' :: cs => some cs
  | '\r' :: '\n' :: cs => some cs
  | _ => none

/-- The text after its leading blanks and line breaks. -/
def skipLines : List Char → List Char
  | ' ' :: cs => skipLines cs
  | '\t' :: cs => skipLines cs
  | '\n' :: cs => skipLines cs
  | '\r' :: '\n' :: cs => skipLines cs
  | cs => cs

/-! ## Escapes -/

/-- The character of a number, if it has one. -/
def charOf? (n : Nat) : Option Char :=
  if n.isValidChar then some (Char.ofNat n) else none

/-- The number that hexadecimal digits write. -/
def hexNumber? (cs : List Char) : Option Nat :=
  cs.foldlM (fun n c => (Text.hexValue? c).map fun d => n * 16 + d) 0

/-- The character of an escape of one letter. -/
def escapeValue? (c : Char) : Option Char :=
  if c = '"' ∨ c = '\\' then some c
  else if c = 'b' then some '\x08'
  else if c = 'f' then some '\x0c'
  else if c = 'n' then some '\n'
  else if c = 'r' then some '\r'
  else if c = 't' then some '\t'
  else none

def escape? : List Char → Found Char
  | 'u' :: a :: b :: c :: d :: cs =>
    ((hexNumber? [a, b, c, d]).bind charOf?).map fun c => (c, cs)
  | 'U' :: a :: b :: c :: d :: e :: f :: g :: h :: cs =>
    ((hexNumber? [a, b, c, d, e, f, g, h]).bind charOf?).map fun c => (c, cs)
  | c :: cs => (escapeValue? c).map fun c => (c, cs)
  | [] => none

/-! ## Texts of one line -/

/-- Reads the rest of a text between double quotes. Each step takes a character at least. -/
def quoted? : (fuel : Nat) → (before : List Char) → List Char → Found String
  | 0, _, _ => none
  | _ + 1, _, [] => none
  | _ + 1, before, '"' :: cs => some (String.ofList before.reverse, cs)
  | fuel + 1, before, '\\' :: cs =>
    match escape? cs with
    | some (c, cs) => quoted? fuel (c :: before) cs
    | none => none
  | fuel + 1, before, c :: cs => if inLine c then quoted? fuel (c :: before) cs else none

/-- Reads the rest of a text between single quotes. -/
def plain? : (before : List Char) → List Char → Found String
  | _, [] => none
  | before, '\'' :: cs => some (String.ofList before.reverse, cs)
  | before, c :: cs => if inLine c then plain? (c :: before) cs else none

/-! ## Texts of many lines -/

/-- Reads the end of a text between three pairs of quotes: three of them, after one or two that
belong to the text. -/
def closing? (quote : Char) (before : List Char) : List Char → Found String
  | a :: b :: c :: cs =>
    if a = quote ∧ b = quote ∧ c = quote then
      let extra := (cs.takeWhile (· == quote)).take 2
      some (String.ofList (extra ++ before).reverse, cs.drop extra.length)
    else none
  | _ => none

/-- Reads the rest of a text between three pairs of double quotes. A backslash at the end of a
line takes the break and the blanks after it away. -/
def quotedLines? : (fuel : Nat) → (before : List Char) → List Char → Found String
  | 0, _, _ => none
  | fuel + 1, before, cs =>
    match closing? '"' before cs with
    | some found => some found
    | none =>
      match cs with
      | [] => none
      | '\\' :: cs =>
        match escape? cs with
        | some (c, cs) => quotedLines? fuel (c :: before) cs
        | none =>
          match lineBreak? (skipBlanks cs) with
          | some cs => quotedLines? fuel before (skipLines cs)
          | none => none
      | c :: cs =>
        match lineBreak? (c :: cs) with
        | some cs => quotedLines? fuel ('\n' :: before) cs
        | none => if inLine c then quotedLines? fuel (c :: before) cs else none

/-- Reads the rest of a text between three pairs of single quotes. -/
def plainLines? : (fuel : Nat) → (before : List Char) → List Char → Found String
  | 0, _, _ => none
  | fuel + 1, before, cs =>
    match closing? '\'' before cs with
    | some found => some found
    | none =>
      match cs with
      | [] => none
      | c :: cs =>
        match lineBreak? (c :: cs) with
        | some cs => plainLines? fuel ('\n' :: before) cs
        | none => if inLine c then plainLines? fuel (c :: before) cs else none

/-- The text after a line break, or the text itself if it begins with none. -/
def afterBreak (cs : List Char) : List Char := (lineBreak? cs).getD cs

def line? : List Char → Found String
  | '"' :: cs => quoted? (cs.length + 1) [] cs
  | '\'' :: cs => plain? [] cs
  | _ => none

def text? : List Char → Found String
  | '"' :: '"' :: '"' :: cs => quotedLines? (cs.length + 1) [] (afterBreak cs)
  | '\'' :: '\'' :: '\'' :: cs => plainLines? (cs.length + 1) [] (afterBreak cs)
  | cs => line? cs

end BugFeed.Toml
