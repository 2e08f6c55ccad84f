import BugFeed.Text.Blank
import BugFeed.Text.Digits

/-!
# Runs of digits

A run of digits is read as far as it goes: at most `limit` digits (`takeDigits_append`) or all of
them (`spanDigits_append`), where the text behind it begins with no digit. Its value is the number
that it was written for, be it with a given count of digits (`digitsValue_fixed`) or with as few as
possible (`digitsValue_toDigits`). The shortest digits of a positive number do not begin with a zero
(`toDigits_head_ne_zero`), and no blank is skipped before digits (`skipBlanks_of_digits`). Digits of
a given count write no more than they have room for (`readFixedFrom_lt`).
-/

namespace BugFeed.Text

set_option autoImplicit false

/-- A run of digits. -/
def AllDigits (ds : List Char) : Prop := ∀ c ∈ ds, c.isDigit = true

/-- A text that does not begin with a digit. -/
def NoDigitFirst (cs : List Char) : Prop := ∀ c rest, cs = c :: rest → c.isDigit = false

theorem noDigitFirst_cons {c : Char} (h : c.isDigit = false) (cs : List Char) :
    NoDigitFirst (c :: cs) := by
  rintro d rest ⟨rfl, rfl⟩
  exact h

theorem toNat_of_isDigit {c : Char} (h : c.isDigit = true) : 48 ≤ c.toNat ∧ c.toNat ≤ 57 := by
  simp only [Char.isDigit, Bool.and_eq_true, decide_eq_true_eq, ge_iff_le, UInt32.le_iff_toNat_le]
    at h
  exact h

theorem isDigit_digitChar {n : Nat} (h : n < 10) : (Nat.digitChar n).isDigit = true := by
  have value := digitValue?_digitChar h
  rw [digitValue?] at value
  split at value
  · assumption
  · cases value

/-! ## What is a run of digits -/

theorem allDigits_toDigits (n : Nat) : AllDigits (Nat.toDigits 10 n) := fun _ h =>
  Nat.isDigit_of_mem_toDigits (by decide) (by decide) h

/-- The shortest digits of a number begin with a digit. -/
theorem exists_toDigits_cons (n : Nat) :
    ∃ d ds, Nat.toDigits 10 n = d :: ds ∧ d.isDigit = true := by
  obtain ⟨d, ds, digits⟩ := List.exists_cons_of_ne_nil (Nat.toDigits_ne_nil (n := n) (b := 10))
  exact ⟨d, ds, digits, allDigits_toDigits n d (digits ▸ List.mem_cons_self)⟩

theorem allDigits_fixed (width n : Nat) : AllDigits (fixed width n) := by
  induction width generalizing n with
  | zero =>
      intro c hc
      cases hc
  | succ width ih =>
      intro c hc
      rcases List.mem_append.mp hc with hc | hc
      · exact ih _ c hc
      · rw [List.mem_singleton.mp hc]
        exact isDigit_digitChar (Nat.mod_lt n (by decide))

theorem allDigits_padded (width n : Nat) : AllDigits (padded width n) := by
  rw [padded]
  split
  · exact allDigits_fixed width n
  · exact allDigits_toDigits n

/-- The shortest digits of a positive number do not begin with a zero. -/
theorem toDigits_head_ne_zero {n : Nat} (positive : 0 < n) :
    ∃ d ds, Nat.toDigits 10 n = d :: ds ∧ d ≠ '0' := by
  induction n using Nat.strongRecOn with
  | _ n ih =>
      by_cases single : n < 10
      · refine ⟨Nat.digitChar n, [], Nat.toDigits_of_lt_base single, ?_⟩
        rw [ne_eq, Nat.digitChar_eq_zero]
        omega
      · obtain ⟨d, ds, first, nonzero⟩ := ih (n / 10) (by omega) (by omega)
        refine ⟨d, ds ++ [Nat.digitChar (n % 10)], ?_, nonzero⟩
        rw [Nat.toDigits_of_base_le (by decide) (by omega), first, List.cons_append]

/-! ## Values -/

theorem digitsValue_toDigits (n : Nat) : digitsValue (Nat.toDigits 10 n) = n :=
  Nat.ofDigitChars_ten_toDigits

/-- One digit more makes a number ten times as large and adds the digit. -/
theorem digitsValue_append_digit (ds : List Char) {d : Nat} (h : d < 10) :
    digitsValue (ds ++ [Nat.digitChar d]) = digitsValue ds * 10 + d := by
  have digit : (Nat.digitChar d).toNat - '0'.toNat = d := Nat.toNat_digitChar_sub_48_of_lt_ten h
  simp only [digitsValue, Nat.ofDigitChars_eq_foldl, List.foldl_append, List.foldl_cons,
    List.foldl_nil, digit]
  omega

theorem digitsValue_fixed (width n : Nat) :
    digitsValue (fixed width n) = n % Nat.pow 10 width := by
  rw [Nat.pow_eq]
  induction width generalizing n with
  | zero => rw [Nat.pow_zero, Nat.mod_one]; rfl
  | succ width ih =>
      rw [fixed, digitsValue_append_digit _ (Nat.mod_lt n (by decide)), ih, Nat.pow_succ,
        Nat.mul_comm (10 ^ width), Nat.mod_mul]
      omega

/-- A number that fits into the width is the value of its digits. -/
theorem digitsValue_fixed_of_lt {width n : Nat} (h : n < Nat.pow 10 width) :
    digitsValue (fixed width n) = n := by
  rw [digitsValue_fixed]
  exact Nat.mod_eq_of_lt h

theorem digitsValue_padded (width n : Nat) : digitsValue (padded width n) = n := by
  rw [padded]
  split
  · exact digitsValue_fixed_of_lt ‹_›
  · exact digitsValue_toDigits n

/-! ## Reading -/

/-- A run of digits is taken whole, if it reaches the limit or no digit follows it. -/
theorem takeDigits_append {limit : Nat} {ds rest : List Char} (digits : AllDigits ds)
    (short : ds.length ≤ limit) (full : ds.length = limit ∨ NoDigitFirst rest) :
    takeDigits limit (ds ++ rest) = (ds, rest) := by
  induction ds generalizing limit with
  | nil =>
      cases limit with
      | zero => rfl
      | succ limit =>
          rcases full with empty | apart
          · cases empty
          · cases rest with
            | nil => rfl
            | cons c cs =>
                rw [List.nil_append, takeDigits, apart c cs rfl]
                rfl
  | cons d ds ih =>
      cases limit with
      | zero => cases short
      | succ limit =>
          have tail := ih (fun c hc => digits c (List.mem_cons_of_mem d hc))
            (Nat.le_of_succ_le_succ short) (full.imp_left Nat.succ.inj)
          rw [List.cons_append, takeDigits, if_pos (digits d List.mem_cons_self), tail]

/-- A run of digits of which there is one at least is read with its value. -/
theorem readSome_append {limit : Nat} {ds rest : List Char} (digits : AllDigits ds)
    (nonempty : ds ≠ []) (short : ds.length ≤ limit)
    (full : ds.length = limit ∨ NoDigitFirst rest) :
    readSome limit (ds ++ rest) = some (digitsValue ds, rest) := by
  rw [readSome, takeDigits_append digits short full]
  cases ds with
  | nil => exact absurd rfl nonempty
  | cons d ds => rfl

theorem dropWhile_isDigit {cs : List Char} (apart : NoDigitFirst cs) :
    cs.dropWhile Char.isDigit = cs := by
  cases cs with
  | nil => rfl
  | cons c cs => rw [List.dropWhile_cons_of_neg (by rw [apart c cs rfl]; decide)]

/-- A run of digits ends where no digit follows. -/
theorem spanDigits_append {ds rest : List Char} (digits : AllDigits ds)
    (apart : NoDigitFirst rest) : spanDigits (ds ++ rest) = (ds, rest) := by
  have none_taken : rest.takeWhile Char.isDigit = [] := by
    cases rest with
    | nil => rfl
    | cons c cs => rw [List.takeWhile_cons_of_neg (by rw [apart c cs rfl]; decide)]
  rw [spanDigits, List.takeWhile_append_of_pos digits, List.dropWhile_append_of_pos digits,
    none_taken, List.append_nil, dropWhile_isDigit apart]

/-! ## Bounds -/

theorem digitValue?_lt {c : Char} {d : Nat} (h : digitValue? c = some d) : d < 10 := by
  rw [digitValue?] at h
  split at h
  · have bounds := toNat_of_isDigit ‹_›
    cases h
    omega
  · cases h

/-- Digits behind a value make it at most as large as nines would. -/
theorem readFixedFrom_lt {width value n : Nat} {cs rest : List Char}
    (h : readFixedFrom width value cs = some (n, rest)) : n < (value + 1) * Nat.pow 10 width := by
  induction width generalizing value cs with
  | zero =>
      cases h
      change n < (n + 1) * 1
      omega
  | succ width ih =>
      cases cs with
      | nil => cases h
      | cons c cs =>
          rw [readFixedFrom] at h
          cases digit : digitValue? c with
          | none =>
              rw [digit] at h
              cases h
          | some d =>
              rw [digit] at h
              have small := digitValue?_lt digit
              have power : Nat.pow 10 (width + 1) = 10 * Nat.pow 10 width := Nat.mul_comm _ _
              calc n < (value * 10 + d + 1) * Nat.pow 10 width := ih h
                _ ≤ (value + 1) * 10 * Nat.pow 10 width := Nat.mul_le_mul_right _ (by omega)
                _ = (value + 1) * Nat.pow 10 (width + 1) := by rw [power, Nat.mul_assoc]

/-! ## Blanks before digits -/

theorem isBlank_of_isDigit {c : Char} (h : c.isDigit = true) : isBlank c = false := by
  obtain ⟨low, high⟩ := toNat_of_isDigit h
  simp only [isBlank, blankRanges, List.any_cons, List.any_nil, Bool.or_eq_false_iff,
    Bool.and_eq_false_iff, decide_eq_false_iff_not, Bool.or_false]
  omega

/-- No blank is skipped before digits. -/
theorem skipBlanks_of_digits {ds rest : List Char} (digits : AllDigits ds) (nonempty : ds ≠ []) :
    skipBlanks (ds ++ rest) = ds ++ rest := by
  cases ds with
  | nil => exact absurd rfl nonempty
  | cons d ds =>
      have blank := isBlank_of_isDigit (digits d List.mem_cons_self)
      rw [skipBlanks, List.cons_append, List.dropWhile_cons_of_neg (by rw [blank]; decide)]

end BugFeed.Text
