import BugFeed.Json.Number

/-!
# Reading JSON text

One pass over the characters. Every reader gives what it found and the rest of the text, or no
rest if the text stopped being JSON there; the first problem is part of what it found.
-/

namespace BugFeed.Json

set_option autoImplicit false

open Text

def skipBlanks (cs : List Char) : List Char :=
  cs.dropWhile fun c => c == ' ' || c == '\n' || c == '\t' || c == '\r'

/-! ## Texts -/

/-- The number that four hexadecimal digits write. -/
def hex4? (a b c d : Char) : Option Nat := do
  let a ← hexValue? a
  let b ← hexValue? b
  let c ← hexValue? c
  let d ← hexValue? d
  some (((a * 16 + b) * 16 + c) * 16 + d)

/-- The problem of an escape by number with fewer than four characters after it: if they are
four bytes all the same, one of them is no digit. -/
def shortHex (cs : List Char) : Problem :=
  if cs.foldr (fun c n => c.utf8Size + n) 0 < 4 then .ended else .malformed

/-- The character of an escape of one letter. -/
def escapeValue? (c : Char) : Option Char :=
  if c = '"' ∨ c = '\\' ∨ c = '/' then some c
  else if c = 'b' then some '\x08'
  else if c = 'f' then some '\x0c'
  else if c = 'n' then some '\n'
  else if c = 'r' then some '\r'
  else if c = 't' then some '\t'
  else none

/-- Whether a number is the first half of a surrogate pair. -/
def isHighSurrogate (n : Nat) : Bool := 0xd800 ≤ n && n ≤ 0xdbff

/-- Whether a number is the second half of a surrogate pair. -/
def isLowSurrogate (n : Nat) : Bool := 0xdc00 ≤ n && n ≤ 0xdfff

/-- The character of a surrogate pair. -/
def pairedChar (high low : Nat) : Char :=
  Char.ofNat (0x10000 + (high - 0xd800) * 0x400 + (low - 0xdc00))

/-- What is found when a problem cuts a text off. -/
def cutText (unpaired : Bool) (p : Problem) : Spelling × Option (List Char) :=
  (if unpaired then .unpaired (some p) else .cut p, none)

/-- Reads a text after its opening quote. The characters before `cs` are in `before`, last one
first, and `unpaired` says whether half of a surrogate pair stood among them. -/
def text (before : List Char) (unpaired : Bool) (cs : List Char) :
    Spelling × Option (List Char) :=
  match cs with
  | [] => cutText unpaired .ended
  | '"' :: rest =>
    (if unpaired then .unpaired none else .plain (String.ofList before.reverse), some rest)
  | '\\' :: 'u' :: a :: b :: c :: d :: rest =>
    match hex4? a b c d with
    | none => cutText unpaired .malformed
    | some n =>
      if isHighSurrogate n then
        match rest with
        | [] => cutText unpaired .ended
        | ['\\'] => cutText unpaired .ended
        | '\\' :: 'u' :: e :: f :: g :: h :: rest =>
          match hex4? e f g h with
          | none => cutText unpaired .malformed
          | some m =>
            if isLowSurrogate m then text (pairedChar n m :: before) unpaired rest
            else text before true rest
        | '\\' :: 'u' :: short => cutText unpaired (shortHex short)
        | rest => text before true rest
      else if isLowSurrogate n then text before true rest
      else text (Char.ofNat n :: before) unpaired rest
  | '\\' :: 'u' :: short => cutText unpaired (shortHex short)
  | ['\\'] => cutText unpaired .ended
  | '\\' :: c :: rest =>
    match escapeValue? c with
    | some c => text (c :: before) unpaired rest
    | none => cutText unpaired .malformed
  | c :: rest =>
    if c.toNat < 32 then cutText unpaired .malformed
    else text (c :: before) unpaired rest

/-! ## Values -/

/-- Reads the rest of a word that stands for a value. -/
def word (value : Value) : List Char → List Char → Value × Option (List Char)
  | [], cs => (value, some cs)
  | _ :: _, [] => (.broken .ended, none)
  | e :: es, c :: cs => if e = c then word value es cs else (.broken .malformed, none)

mutual

/-- Reads a value. -/
def value (fuel : Nat) (cs : List Char) : Value × Option (List Char) :=
  match fuel with
  | 0 => (.broken .malformed, none)
  | fuel + 1 =>
    match skipBlanks cs with
    | [] => (.absent, none)
    | c :: rest =>
      if c = 'n' then word .null ['u', 'l', 'l'] rest
      else if c = 't' then word (.truth true) ['r', 'u', 'e'] rest
      else if c = 'f' then word (.truth false) ['a', 'l', 's', 'e'] rest
      else if c = '"' then
        let (s, rest) := text [] false rest
        (.text s, rest)
      else if c = '[' then
        match skipBlanks rest with
        | [] => (.list (.broken .ended), none)
        | ']' :: rest => (.list .done, some rest)
        | rest =>
          let (found, rest) := items fuel rest
          (.list found, rest)
      else if c = '\x7b' then
        match skipBlanks rest with
        | '\x7d' :: rest => (.record .done, some rest)
        | rest =>
          let (found, rest) := members fuel rest
          (.record found, rest)
      else if c = '-' ∨ c.isDigit then
        match number (c :: rest) with
        | .ok (n, rest) => (.number n, some rest)
        | .error p => (.number (.cut p), none)
      else (.broken .malformed, none)

/-- Reads an item and those that follow it. -/
def items (fuel : Nat) (cs : List Char) : Items × Option (List Char) :=
  match fuel with
  | 0 => (.broken .malformed, none)
  | fuel + 1 =>
    match value fuel cs with
    | (v, none) => (.more v .done, none)
    | (v, some rest) =>
      match skipBlanks rest with
      | [] => (.more v (.broken .ended), none)
      | c :: rest =>
        if c = ',' then
          let (found, rest) := items fuel rest
          (.more v found, rest)
        else if c = ']' then (.more v .done, some rest)
        else (.more v (.broken .malformed), none)

/-- Reads a member and those that follow it. -/
def members (fuel : Nat) (cs : List Char) : Members × Option (List Char) :=
  match fuel with
  | 0 => (.broken .malformed, none)
  | fuel + 1 =>
    match skipBlanks cs with
    | [] => (.misplaced .ended, none)
    | c :: rest =>
      if c = '"' then
        match text [] false rest with
        | (key, none) => (.more key .null .done, none)
        | (key, some rest) =>
          match skipBlanks rest with
          | [] => (.more key .absent .done, none)
          | c :: rest =>
            if c = ':' then
              match value fuel rest with
              | (v, none) => (.more key v .done, none)
              | (v, some rest) =>
                match skipBlanks rest with
                | [] => (.more key v (.broken .ended), none)
                | c :: rest =>
                  if c = ',' then
                    let (found, rest) := members fuel rest
                    (.more key v found, rest)
                  else if c = '\x7d' then (.more key v .done, some rest)
                  else (.more key v (.broken .malformed), none)
            else (.more key (.broken .malformed) .done, none)
      else (.misplaced .malformed, none)

end

/-- The tree of a text and what follows it. Every level of the tree takes a character, so the
length of the text bounds the work. -/
def read (s : String) : Value × Option (List Char) :=
  value (2 * s.length + 2) s.toList

end BugFeed.Json
