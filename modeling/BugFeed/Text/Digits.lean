/-!
# Digits

Numbers in text. `fixed` writes a number with a given count of digits and `readFixed` reads one
back; `readSome` reads a run of digits whose length is only bounded.
-/

namespace BugFeed.Text

set_option autoImplicit false

def digitValue? (c : Char) : Option Nat :=
  if c.isDigit then some (c.toNat - 48) else none

def hexValue? (c : Char) : Option Nat :=
  if c.isDigit then some (c.toNat - 48)
  else if 'a' ≤ c ∧ c ≤ 'f' then some (c.toNat - 87)
  else if 'A' ≤ c ∧ c ≤ 'F' then some (c.toNat - 55)
  else none

/-- The last `width` decimal digits of `n`, with leading zeros. -/
def fixed : (width n : Nat) → List Char
  | 0, _ => []
  | width + 1, n => fixed width (n / 10) ++ [Nat.digitChar (n % 10)]

/-- At least `width` digits of `n`: leading zeros fill up what is missing. -/
def padded (width n : Nat) : List Char :=
  if n < Nat.pow 10 width then fixed width n else Nat.toDigits 10 n

/-- Reads exactly `width` digits onto `value`. -/
def readFixedFrom : (width value : Nat) → List Char → Option (Nat × List Char)
  | 0, value, cs => some (value, cs)
  | _ + 1, _, [] => none
  | width + 1, value, c :: cs =>
    match digitValue? c with
    | some d => readFixedFrom width (value * 10 + d) cs
    | none => none

/-- Reads exactly `width` digits. -/
def readFixed (width : Nat) (cs : List Char) : Option (Nat × List Char) :=
  readFixedFrom width 0 cs

/-- The digits at the start of a text, at most `limit` of them, and what follows. -/
def takeDigits : (limit : Nat) → List Char → List Char × List Char
  | 0, cs => ([], cs)
  | _ + 1, [] => ([], [])
  | limit + 1, c :: cs =>
    if c.isDigit then
      let (ds, rest) := takeDigits limit cs
      (c :: ds, rest)
    else ([], c :: cs)

/-- All digits at the start of a text, and what follows. -/
def spanDigits (cs : List Char) : List Char × List Char :=
  (cs.takeWhile Char.isDigit, cs.dropWhile Char.isDigit)

/-- The number that a run of digits writes. -/
def digitsValue (ds : List Char) : Nat := Nat.ofDigitChars 10 ds 0

/-- Reads a number of one to `limit` digits. -/
def readSome (limit : Nat) (cs : List Char) : Option (Nat × List Char) :=
  match takeDigits limit cs with
  | ([], _) => none
  | (ds, rest) => some (digitsValue ds, rest)

/-- The decimal text of a number. -/
def decimal (n : Nat) : String := String.ofList (Nat.toDigits 10 n)

/-- A digit character has the value it was made from. -/
theorem digitValue?_digitChar {n : Nat} (h : n < 10) :
    digitValue? (Nat.digitChar n) = some n := by
  have : n = 0 ∨ n = 1 ∨ n = 2 ∨ n = 3 ∨ n = 4 ∨ n = 5 ∨ n = 6 ∨ n = 7 ∨ n = 8 ∨ n = 9 := by omega
  rcases this with rfl | rfl | rfl | rfl | rfl | rfl | rfl | rfl | rfl | rfl <;> decide

/-- `fixed` writes as many digits as asked. -/
theorem length_fixed (width n : Nat) : (fixed width n).length = width := by
  induction width generalizing n with
  | zero => rfl
  | succ width ih => simp [fixed, ih]

/-- Reading one digit more than a prefix that reads. -/
theorem readFixedFrom_append (width value n : Nat) (rest : List Char) :
    readFixedFrom width value (fixed width n ++ rest) =
      some (value * Nat.pow 10 width + n % Nat.pow 10 width, rest) := by
  induction width generalizing value n rest with
  | zero => simp [readFixedFrom, fixed, Nat.mod_one]
  | succ width ih =>
    have split : ∀ (k v : Nat) (cs : List Char),
        readFixedFrom (k + 1) v cs =
          (readFixedFrom k v cs).bind fun p => readFixedFrom 1 p.1 p.2 := by
      intro k
      induction k with
      | zero => intro v cs; simp [readFixedFrom]
      | succ k ihk =>
        intro v cs
        cases cs with
        | nil => simp [readFixedFrom]
        | cons c cs =>
          rw [readFixedFrom, readFixedFrom]
          cases digitValue? c with
          | none => rfl
          | some d => exact ihk _ cs
    rw [split, fixed, List.append_assoc, ih]
    simp only [Option.bind_some, List.singleton_append, readFixedFrom,
      digitValue?_digitChar (Nat.mod_lt n (by decide : 0 < 10)), Option.some.injEq, Prod.mk.injEq,
      and_true]
    have h := Nat.mod_mul (x := n) (a := 10) (b := Nat.pow 10 width)
    have power : Nat.pow 10 (width + 1) = 10 * Nat.pow 10 width := Nat.mul_comm _ _
    rw [power, h, Nat.add_mul, Nat.mul_assoc, Nat.mul_comm (Nat.pow 10 width) 10]
    omega

/-- Reading back what `fixed` wrote. -/
theorem readFixed_fixed (width n : Nat) (rest : List Char) :
    readFixed width (fixed width n ++ rest) = some (n % Nat.pow 10 width, rest) := by
  simp [readFixed, readFixedFrom_append]

end BugFeed.Text
