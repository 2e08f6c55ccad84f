import BugFeed.Json.Tree
import BugFeed.Text.Digits

/-!
# JSON text

The compact text of a tree: no blanks, the quote, the backslash and the control characters of a
text escaped, every other character as itself.
-/

namespace BugFeed.Json

set_option autoImplicit false

/-- One character of a text as it is written. -/
def escaped (c : Char) : List Char :=
  if c = '"' then ['\\', '"']
  else if c = '\\' then ['\\', '\\']
  else if c = '\n' then ['\\', 'n']
  else if c = '\r' then ['\\', 'r']
  else if c = '\t' then ['\\', 't']
  else if c = '\x08' then ['\\', 'b']
  else if c = '\x0c' then ['\\', 'f']
  else if c.toNat < 32 then
    ['\\', 'u', '0', '0', Nat.digitChar (c.toNat / 16), Nat.digitChar (c.toNat % 16)]
  else [c]

/-- A text between quotes. -/
def textChars (s : String) : List Char := '"' :: (s.toList.flatMap escaped ++ ['"'])

/-- A number. Of those whose value is not kept, one of their class. -/
def Number.chars : Number → List Char
  | .integer n => if n < 0 then '-' :: Nat.toDigits 10 n.natAbs else Nat.toDigits 10 n.natAbs
  | .other => ['-', '0']
  | .tooLarge => ['1', 'e', '9', '9', '9']
  | .cut _ => ['-']

/-- A text, or one with half of a surrogate pair. -/
def Spelling.chars : Spelling → List Char
  | .plain s => textChars s
  | .cut _ => ['"']
  | .unpaired _ => ['"', '\\', 'u', 'd', 'c', '0', '0', '"']

mutual

/-- The text of a value. -/
def Value.chars : Value → List Char
  | .absent => []
  | .null => ['n', 'u', 'l', 'l']
  | .truth true => ['t', 'r', 'u', 'e']
  | .truth false => ['f', 'a', 'l', 's', 'e']
  | .number n => n.chars
  | .text s => s.chars
  | .list items => '[' :: items.chars
  | .record members => '\x7b' :: members.chars
  | .broken _ => []

/-- The text of items, to the end of their list. -/
def Items.chars : Items → List Char
  | .done => [']']
  | .more head .done => head.chars ++ [']']
  | .more head (.more next tail) => head.chars ++ ',' :: Items.chars (.more next tail)
  | .more head (.broken _) => head.chars
  | .broken _ => []

/-- The text of members, to the end of their record. -/
def Members.chars : Members → List Char
  | .done => ['\x7d']
  | .more key value .done => key.chars ++ ':' :: (value.chars ++ ['\x7d'])
  | .more key value (.more next v tail) =>
    key.chars ++ ':' :: (value.chars ++ ',' :: Members.chars (.more next v tail))
  | .more key value (.misplaced _) => key.chars ++ ':' :: value.chars
  | .more key value (.broken _) => key.chars ++ ':' :: value.chars
  | .misplaced _ => []
  | .broken _ => []

end

/-- The text of a value as a string. -/
def Value.render (v : Value) : String := String.ofList v.chars

end BugFeed.Json
