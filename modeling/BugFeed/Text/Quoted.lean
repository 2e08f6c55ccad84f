import BugFeed.Text.Printable

/-!
# Quoted text

Messages quote a text that came from outside: it stands between double quotes, the quote, the
backslash and the usual control characters have a short escape, and any other character that
could not be seen is spelled out by its number, so that the quoted form shows exactly what the
text held.
-/

namespace BugFeed.Text

set_option autoImplicit false

/-- The spelling of a character by its number, in lower-case hexadecimal. -/
def numbered (c : Char) : List Char :=
  '\\' :: 'u' :: '\x7b' :: (Nat.toDigits 16 c.toNat ++ ['\x7d'])

/-- One character as it stands between the quotes. -/
def quotedChar (c : Char) : List Char :=
  if c = '\x00' then ['\\', '0']
  else if c = '\t' then ['\\', 't']
  else if c = '\r' then ['\\', 'r']
  else if c = '\n' then ['\\', 'n']
  else if c = '"' then ['\\', '"']
  else if c = '\\' then ['\\', '\\']
  else if isHidden c then numbered c
  else [c]

def quoted (s : String) : String :=
  String.ofList ('"' :: (s.toList.flatMap quotedChar ++ ['"']))

end BugFeed.Text
