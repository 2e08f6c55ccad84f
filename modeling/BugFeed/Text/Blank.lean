/-!
# Blank characters

The characters with the Unicode property `White_Space`. Readers that allow blanks between the
parts of a text skip exactly these.
-/

namespace BugFeed.Text

set_option autoImplicit false

/-- Ranges of blank characters, in ascending order. -/
def blankRanges : List (Nat × Nat) := [
  (0x9, 0xd), (0x20, 0x20), (0x85, 0x85), (0xa0, 0xa0), (0x1680, 0x1680), (0x2000, 0x200a),
  (0x2028, 0x2029), (0x202f, 0x202f), (0x205f, 0x205f), (0x3000, 0x3000)]

def isBlank (c : Char) : Bool :=
  blankRanges.any fun range => range.1 ≤ c.toNat && c.toNat ≤ range.2

def skipBlanks (cs : List Char) : List Char := cs.dropWhile isBlank

/-- Every character that the core library counts as whitespace is blank. -/
theorem isBlank_of_isWhitespace {c : Char} (h : c.isWhitespace = true) : isBlank c = true := by
  simp only [Char.isWhitespace, Bool.or_eq_true, decide_eq_true_eq] at h
  rcases h with ((rfl | rfl) | rfl) | rfl <;> decide

end BugFeed.Text
