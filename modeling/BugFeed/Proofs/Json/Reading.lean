import BugFeed.Json.Read
import BugFeed.Json.Written
import BugFeed.Proofs.Text.Digits

/-!
# JSON text is read back

A tree is whole if nothing cuts it off and all its numbers are unsigned ones of 64 bits. The text of
a whole tree is read back as the tree, whatever follows it, as long as that does not go on a number
(`value_chars`), and so is the text by itself (`read_render`).

The parts of the text are read back one by one: a character of a text as it is escaped
(`text_escaped`), a text (`text_textChars`) and a number of 64 bits, all of whose digits its
significand holds (`number_toDigits`). The work that is allowed is counted in characters of the
text, of which every level of the tree takes one.
-/

namespace BugFeed.Json

set_option autoImplicit false

open Text

/-! ## Texts -/

/-- A digit of a number to the base sixteen has the value it was made from. -/
theorem hexValue?_digitChar {n : Nat} (h : n < 16) : hexValue? (Nat.digitChar n) = some n := by
  revert n
  decide

/-- The number that a control character is escaped by is its own. -/
theorem hex4?_control {c : Char} (control : c.toNat < 32) :
    hex4? '0' '0' (Nat.digitChar (c.toNat / 16)) (Nat.digitChar (c.toNat % 16)) =
      some c.toNat := by
  have zero : hexValue? '0' = some 0 := by decide
  rw [hex4?, zero, hexValue?_digitChar (by omega), hexValue?_digitChar (by omega)]
  simp only [bind, Option.bind_some, Option.some.injEq]
  omega

/-- An escape of one letter is read as its character. -/
theorem text_letter {letter c : Char} (other : letter ≠ 'u') (h : escapeValue? letter = some c)
    (before rest : List Char) :
    text before false ('\\' :: letter :: rest) = text (c :: before) false rest := by
  rw [text] <;> simp_all

/-- A character is read back as it is escaped. -/
theorem text_escaped (before : List Char) (c : Char) (rest : List Char) :
    text before false (escaped c ++ rest) = text (c :: before) false rest := by
  rw [escaped]
  iterate 7
    split
    · subst_vars
      exact text_letter (by decide) (by decide) before rest
  split
  · rename_i control
    have high : isHighSurrogate c.toNat = false := by
      simp only [isHighSurrogate, Bool.and_eq_false_iff, decide_eq_false_iff_not]
      omega
    have low : isLowSurrogate c.toNat = false := by
      simp only [isLowSurrogate, Bool.and_eq_false_iff, decide_eq_false_iff_not]
      omega
    simp only [List.cons_append, List.nil_append, text, hex4?_control control, high, low,
      Bool.false_eq_true, if_false, Char.ofNat_toNat]
  · rename_i quote backslash _ _ _ _ _ shown
    rw [List.cons_append, List.nil_append, text, if_neg shown] <;> simp_all

theorem text_flatMap_escaped (before cs rest : List Char) :
    text before false (cs.flatMap escaped ++ '"' :: rest) =
      (.plain (String.ofList (before.reverse ++ cs)), some rest) := by
  induction cs generalizing before with
  | nil => simp [text]
  | cons c cs ih =>
      rw [List.flatMap_cons, List.append_assoc, text_escaped, ih]
      simp

/-- A text is read back after its opening quote. -/
theorem text_textChars (s : String) (rest : List Char) :
    text [] false (s.toList.flatMap escaped ++ '"' :: rest) = (.plain s, some rest) := by
  rw [text_flatMap_escaped, List.reverse_nil, List.nil_append, String.ofList_toList]

/-! ## Numbers -/

/-- A text that does not go on a number. -/
def NoNumberFirst (cs : List Char) : Prop :=
  ∀ c rest, cs = c :: rest → c.isDigit = false ∧ c ≠ '.' ∧ c ≠ 'e' ∧ c ≠ 'E'

theorem NoNumberFirst.noDigitFirst {cs : List Char} (h : NoNumberFirst cs) : NoDigitFirst cs :=
  fun c rest eq => (h c rest eq).1

/-- A significand takes all digits of a number that 64 bits hold. -/
theorem takeSignificand_of_lt (ds : List Char) (n : Nat)
    (h : Nat.ofDigitChars 10 ds n < significandBound) :
    takeSignificand n ds = (Nat.ofDigitChars 10 ds n, []) := by
  induction ds generalizing n with
  | nil => rfl
  | cons d ds ih =>
      have next : n * 10 + digitsValue [d] = Nat.ofDigitChars 10 [d] n := by
        simp only [digitsValue, Nat.ofDigitChars_eq_foldl, List.foldl_cons, List.foldl_nil]
        omega
      have whole : Nat.ofDigitChars 10 (d :: ds) n =
          Nat.ofDigitChars 10 ds (Nat.ofDigitChars 10 [d] n) := by
        simp only [Nat.ofDigitChars_eq_foldl, List.foldl_cons, List.foldl_nil]
      have small : Nat.ofDigitChars 10 [d] n < significandBound := by
        rw [whole, Nat.ofDigitChars_eq_ofDigitChars_zero] at h
        have one : 0 < 10 ^ ds.length := Nat.pow_pos (by decide)
        exact Nat.lt_of_le_of_lt (Nat.le_trans (Nat.le_mul_of_pos_left _ one)
          (Nat.le_add_right _ _)) h
      rw [takeSignificand, next, if_pos small, ih _ (whole ▸ h), whole]

/-- The digits of a number of 64 bits make an integer. -/
theorem ofDigits_toDigits {n : Nat} (h : n < UInt64.size) :
    Number.ofDigits false (Nat.toDigits 10 n) [] none = .integer n := by
  have value := digitsValue_toDigits n
  rw [digitsValue] at value
  have taken : takeSignificand 0 (Nat.toDigits 10 n) = (n, []) := by
    rw [takeSignificand_of_lt _ _ (by rw [value]; exact h), value]
  have finite : exceedsFloats (Nat.toDigits 10 n) [] 0 = false := by
    simp [exceedsFloats, taken, takeSignificand, isInfinite]
  rw [Number.ofDigits, Option.getD_none, finite]
  simp [digitsValue_toDigits]

theorem wholeDigits_toDigits (n : Nat) {rest : List Char} (apart : NoDigitFirst rest) :
    wholeDigits (Nat.toDigits 10 n ++ rest) = .ok (Nat.toDigits 10 n, rest) := by
  rcases Nat.eq_zero_or_pos n with rfl | positive
  · rw [Nat.toDigits_zero, List.singleton_append]
    cases rest with
    | nil => rfl
    | cons c cs => simp [wholeDigits, apart c cs rfl]
  · obtain ⟨d, ds, first, nonzero⟩ := toDigits_head_ne_zero positive
    have span := spanDigits_append (allDigits_toDigits n) apart
    rw [first, List.cons_append] at span ⊢
    rw [wholeDigits, digits, span]
    intro cs zero
    exact nonzero (List.cons.inj zero).1

/-- A number of 64 bits is read back. -/
theorem number_toDigits {n : Nat} (h : n < UInt64.size) {rest : List Char}
    (apart : NoNumberFirst rest) :
    number (Nat.toDigits 10 n ++ rest) = .ok (.integer n, rest) := by
  have whole := wholeDigits_toDigits n apart.noDigitFirst
  have part : places rest = .ok ([], rest) := by
    cases rest with
    | nil => rfl
    | cons c cs =>
        rw [places]
        intro cs point
        exact (apart _ _ rfl).2.1 (List.cons.inj point).1
  have power : exponent rest = .ok (none, rest) := by
    cases rest with
    | nil => rfl
    | cons c cs =>
        obtain ⟨-, -, small, capital⟩ := apart c cs rfl
        simp only [exponent, if_neg (not_or.mpr ⟨small, capital⟩)]
  have unsigned : ∀ cs, Nat.toDigits 10 n ++ rest ≠ '-' :: cs := by
    intro cs minus
    obtain ⟨d, ds, digits, digit⟩ := exists_toDigits_cons n
    rw [digits] at minus
    rw [(List.cons.inj minus).1] at digit
    exact absurd digit (by decide)
  rw [number]
  · simp only [whole, part, power, bind, Except.bind, pure, Except.pure, ofDigits_toDigits h]
  · exact unsigned

/-! ## Trees -/

mutual

/-- Whether a value is one that text can write whole. -/
def Value.Whole : Value → Prop
  | .null | .truth _ | .text (.plain _) => True
  | .number (.integer n) => 0 ≤ n ∧ n < UInt64.size
  | .list items => items.Whole
  | .record members => members.Whole
  | _ => False

/-- Whether all items are whole. -/
def Items.Whole : Items → Prop
  | .done => True
  | .more head tail => head.Whole ∧ tail.Whole
  | .broken _ => False

/-- Whether all members are whole. -/
def Members.Whole : Members → Prop
  | .done => True
  | .more (.plain _) value tail => value.Whole ∧ tail.Whole
  | _ => False

end

/-- No blank is skipped before a character that is none. -/
theorem skipBlanks_cons {c : Char} (h : c ≠ ' ' ∧ c ≠ '\n' ∧ c ≠ '\t' ∧ c ≠ '\r')
    (cs : List Char) : skipBlanks (c :: cs) = c :: cs := by
  obtain ⟨space, line, tab, carriage⟩ := h
  rw [skipBlanks, List.dropWhile_cons_of_neg]
  simp [space, line, tab, carriage]

theorem digit_ne {c : Char} (h : c.isDigit = true) :
    (c ≠ ' ' ∧ c ≠ '\n' ∧ c ≠ '\t' ∧ c ≠ '\r') ∧
      (c ≠ 'n' ∧ c ≠ 't' ∧ c ≠ 'f' ∧ c ≠ '"' ∧ c ≠ '[' ∧ c ≠ ']' ∧ c ≠ '\x7b') := by
  refine ⟨⟨?_, ?_, ?_, ?_⟩, ?_, ?_, ?_, ?_, ?_, ?_, ?_⟩ <;>
    · rintro rfl
      exact absurd h (by decide)

/-- A number that is not negative is written in digits. -/
theorem chars_number {n : Int} (h : 0 ≤ n) :
    (Value.number (.integer n)).chars = Nat.toDigits 10 n.natAbs := by
  rw [Value.chars, Number.chars, if_neg (Int.not_lt.mpr h)]

/-- The text of a whole value begins with a character that is no blank and closes no list. -/
theorem Value.Whole.chars_cons {v : Value} (whole : v.Whole) :
    ∃ c cs, v.chars = c :: cs ∧ c ≠ ']' ∧ ∀ rest, skipBlanks (c :: rest) = c :: rest := by
  cases v with
  | null => exact ⟨_, _, rfl, by decide, skipBlanks_cons (by decide)⟩
  | truth b => cases b <;> exact ⟨_, _, rfl, by decide, skipBlanks_cons (by decide)⟩
  | number n =>
      cases n with
      | integer n =>
          obtain ⟨d, ds, digits, digit⟩ := exists_toDigits_cons n.natAbs
          obtain ⟨blank, -, -, -, -, -, closing, -⟩ := digit_ne digit
          exact ⟨d, ds, (chars_number whole.1).trans digits, closing, skipBlanks_cons blank⟩
      | other | tooLarge | cut => exact whole.elim
  | text s =>
      cases s with
      | plain s => exact ⟨_, _, rfl, by decide, skipBlanks_cons (by decide)⟩
      | cut | unpaired => exact whole.elim
  | list items => exact ⟨_, _, rfl, by decide, skipBlanks_cons (by decide)⟩
  | record members => exact ⟨_, _, rfl, by decide, skipBlanks_cons (by decide)⟩
  | absent | broken => exact whole.elim

/-- A number of 64 bits is a value. -/
theorem value_number {n : Int} (whole : 0 ≤ n ∧ n < UInt64.size) (fuel : Nat)
    {rest : List Char} (apart : NoNumberFirst rest) :
    value (fuel + 1) ((Value.number (.integer n)).chars ++ rest) =
      (.number (.integer n), some rest) := by
  have bound : n.natAbs < UInt64.size := by omega
  have read := number_toDigits bound apart
  have same : ((n.natAbs : Nat) : Int) = n := Int.natAbs_of_nonneg whole.1
  obtain ⟨d, ds, digits, digit⟩ := exists_toDigits_cons n.natAbs
  obtain ⟨blank, null, true_, false_, quote, list, -, record⟩ := digit_ne digit
  rw [digits, List.cons_append] at read
  rw [chars_number whole.1, digits, List.cons_append, value, skipBlanks_cons blank]
  simp only [null, true_, false_, quote, list, record, digit, or_true, if_true, if_false, read,
    same]

/-- Items are read as a list. -/
theorem value_list {head : Value} {tail : Items} {fuel : Nat} {rest : List Char}
    (whole : head.Whole)
    (read : items fuel ((Items.more head tail).chars ++ rest) = (.more head tail, some rest)) :
    value (fuel + 1) ((Value.list (.more head tail)).chars ++ rest) =
      (.list (.more head tail), some rest) := by
  obtain ⟨c, cs, first, open_, blank⟩ := whole.chars_cons
  have begins : ∃ ds, (Items.more head tail).chars = c :: ds := by
    cases tail with
    | done => exact ⟨_, by rw [Items.chars, first, List.cons_append]⟩
    | more => exact ⟨_, by rw [Items.chars, first, List.cons_append]⟩
    | broken => exact ⟨_, by rw [Items.chars, first]⟩
  obtain ⟨ds, begins⟩ := begins
  rw [begins, List.cons_append] at read
  rw [Value.chars, begins, List.cons_append, List.cons_append, value,
    skipBlanks_cons (by decide)]
  simp [blank, open_, read]

/-- Members are read as a record. -/
theorem value_record {key : String} {v : Value} {tail : Members} {fuel : Nat} {rest : List Char}
    (read : members fuel ((Members.more (.plain key) v tail).chars ++ rest) =
      (.more (.plain key) v tail, some rest)) :
    value (fuel + 1) ((Value.record (.more (.plain key) v tail)).chars ++ rest) =
      (.record (.more (.plain key) v tail), some rest) := by
  have begins : ∃ ds, (Members.more (.plain key) v tail).chars = '"' :: ds := by
    cases tail <;> exact ⟨_, rfl⟩
  obtain ⟨ds, begins⟩ := begins
  rw [begins, List.cons_append] at read
  rw [Value.chars, begins, List.cons_append, List.cons_append, value,
    skipBlanks_cons (by decide)]
  simp [skipBlanks_cons, read]

/-- The last item is followed by the end of its list. -/
theorem items_last {head : Value} {fuel : Nat} {rest : List Char}
    (read : value fuel (head.chars ++ ']' :: rest) = (head, some (']' :: rest))) :
    items (fuel + 1) ((Items.more head .done).chars ++ rest) =
      (.more head .done, some rest) := by
  rw [Items.chars, List.append_assoc, List.singleton_append, items, read]
  simp [skipBlanks_cons]

/-- An item that is not the last is followed by a comma and the next one. -/
theorem items_next {head next : Value} {tail : Items} {fuel : Nat} {rest : List Char}
    (read : value fuel (head.chars ++ ',' :: ((Items.more next tail).chars ++ rest)) =
      (head, some (',' :: ((Items.more next tail).chars ++ rest))))
    (others : items fuel ((Items.more next tail).chars ++ rest) = (.more next tail, some rest)) :
    items (fuel + 1) ((Items.more head (.more next tail)).chars ++ rest) =
      (.more head (.more next tail), some rest) := by
  rw [Items.chars, List.append_assoc, List.cons_append, items, read]
  simp [skipBlanks_cons, others]

/-- The last member is followed by the end of its record. -/
theorem members_last {key : String} {v : Value} {fuel : Nat} {rest : List Char}
    (read : value fuel (v.chars ++ '\x7d' :: rest) = (v, some ('\x7d' :: rest))) :
    members (fuel + 1) ((Members.more (.plain key) v .done).chars ++ rest) =
      (.more (.plain key) v .done, some rest) := by
  simp [Members.chars, Spelling.chars, textChars, members, skipBlanks_cons, text_textChars, read]

/-- A member that is not the last is followed by a comma and the next one. -/
theorem members_next {key next : String} {v w : Value} {tail : Members} {fuel : Nat}
    {rest : List Char}
    (read : value fuel (v.chars ++ ',' :: ((Members.more (.plain next) w tail).chars ++ rest)) =
      (v, some (',' :: ((Members.more (.plain next) w tail).chars ++ rest))))
    (others : members fuel ((Members.more (.plain next) w tail).chars ++ rest) =
      (.more (.plain next) w tail, some rest)) :
    members (fuel + 1) ((Members.more (.plain key) v (.more (.plain next) w tail)).chars ++ rest) =
      (.more (.plain key) v (.more (.plain next) w tail), some rest) := by
  rw [Members.chars, Spelling.chars, textChars]
  simp [members, skipBlanks_cons, text_textChars, read, others]

/-- What stands behind a value in a list or a record does not go on a number. -/
theorem noNumberFirst_cons {c : Char} (h : c = ',' ∨ c = ']' ∨ c = '\x7d') (cs : List Char) :
    NoNumberFirst (c :: cs) := by
  rintro d rest ⟨rfl, rfl⟩
  rcases h with rfl | rfl | rfl <;> decide

mutual

/-- **The text of a whole value is read back.** -/
theorem value_chars : ∀ (v : Value) (fuel : Nat) (rest : List Char), v.Whole →
    v.chars.length ≤ fuel → NoNumberFirst rest → value fuel (v.chars ++ rest) = (v, some rest)
  | v, 0, rest, whole, enough, _ => by
      obtain ⟨c, cs, first, -⟩ := whole.chars_cons
      rw [first] at enough
      cases enough
  | .null, fuel + 1, rest, _, _, _ => by
      simp [Value.chars, value, skipBlanks_cons, word]
  | .truth true, fuel + 1, rest, _, _, _ => by
      simp [Value.chars, value, skipBlanks_cons, word]
  | .truth false, fuel + 1, rest, _, _, _ => by
      simp [Value.chars, value, skipBlanks_cons, word]
  | .text (.plain s), fuel + 1, rest, _, _, _ => by
      simp [Value.chars, Spelling.chars, textChars, value, skipBlanks_cons, text_textChars]
  | .number (.integer n), fuel + 1, rest, whole, _, apart => value_number whole fuel apart
  | .list .done, fuel + 1, rest, _, _, _ => by
      simp [Value.chars, Items.chars, value, skipBlanks_cons]
  | .list (.more head tail), fuel + 1, rest, whole, enough, _ =>
      value_list whole.1 (items_chars head tail fuel rest whole (Nat.le_of_succ_le_succ enough))
  | .record .done, fuel + 1, rest, _, _, _ => by
      simp [Value.chars, Members.chars, value, skipBlanks_cons]
  | .record (.more (.plain key) v tail), fuel + 1, rest, whole, enough, _ =>
      value_record (members_chars key v tail fuel rest whole (Nat.le_of_succ_le_succ enough))

/-- The text of items is read back. -/
theorem items_chars : ∀ (head : Value) (tail : Items) (fuel : Nat) (rest : List Char),
    (Items.more head tail).Whole → (Items.more head tail).chars.length ≤ fuel →
    items fuel ((Items.more head tail).chars ++ rest) = (.more head tail, some rest)
  | head, .done, 0, rest, whole, enough => by
      simp [Items.chars] at enough
  | head, .more next tail, 0, rest, whole, enough => by
      simp [Items.chars] at enough
  | head, .done, fuel + 1, rest, whole, enough => by
      rw [Items.chars, List.length_append] at enough
      exact items_last (value_chars head fuel (']' :: rest) whole.1
        (Nat.le_of_succ_le_succ enough) (noNumberFirst_cons (by decide) rest))
  | head, .more next tail, fuel + 1, rest, whole, enough => by
      rw [Items.chars, List.length_append, List.length_cons] at enough
      exact items_next
        (value_chars head fuel _ whole.1 (by omega) (noNumberFirst_cons (by decide) _))
        (items_chars next tail fuel rest whole.2 (by omega))

/-- The text of members is read back. -/
theorem members_chars : ∀ (key : String) (v : Value) (tail : Members) (fuel : Nat)
    (rest : List Char), (Members.more (.plain key) v tail).Whole →
    (Members.more (.plain key) v tail).chars.length ≤ fuel →
    members fuel ((Members.more (.plain key) v tail).chars ++ rest) =
      (.more (.plain key) v tail, some rest)
  | key, v, .done, 0, rest, whole, enough => by
      simp [Members.chars] at enough
  | key, v, .more (.plain next) w tail, 0, rest, whole, enough => by
      simp [Members.chars] at enough
  | key, v, .done, fuel + 1, rest, whole, enough => by
      rw [Members.chars, List.length_append, List.length_cons, List.length_append] at enough
      exact members_last (value_chars v fuel _ whole.1 (by omega)
        (noNumberFirst_cons (by decide) rest))
  | key, v, .more (.plain next) w tail, fuel + 1, rest, whole, enough => by
      rw [Members.chars, List.length_append, List.length_cons, List.length_append,
        List.length_cons] at enough
      exact members_next
        (value_chars v fuel _ whole.1 (by omega) (noNumberFirst_cons (by decide) _))
        (members_chars next w tail fuel rest whole.2 (by omega))

end

/-- **The text of a whole tree is read back with nothing left over.** -/
theorem read_render {v : Value} (whole : v.Whole) : read v.render = (v, some []) := by
  have enough : v.chars.length ≤ 2 * v.render.length + 2 := by
    rw [Value.render, String.length_ofList]
    omega
  have back := value_chars v _ [] whole enough (fun _ _ h => nomatch h)
  rw [List.append_nil] at back
  calc read v.render = value (2 * v.render.length + 2) v.render.toList := rfl
    _ = value (2 * v.render.length + 2) v.chars := by rw [Value.render, String.toList_ofList]
    _ = (v, some []) := back

end BugFeed.Json
