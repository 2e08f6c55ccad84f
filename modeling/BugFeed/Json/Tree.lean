/-!
# JSON trees

A JSON text is read once, from left to right, into a tree. The tree is read even from a text that
is not JSON: the place of the first problem then holds `broken`, and nothing follows it. A reader
of some type walks the tree in the order of the text, so of a value that does not fit its type
and a later place that is not JSON it meets the first.

Some flaws depend on what becomes of a value. A text with half of a surrogate pair and a number
too large for a float are problems only for a reader that takes them as values; a reader that
passes over them does not notice. A text that ends within a number ends too early for a reader that
takes the number as a value, and is malformed for one that passes over it.
-/

namespace BugFeed.Json

set_option autoImplicit false

/-- Why a text does not give a value of some type. -/
inductive Problem where
  /-- The text ends too early. -/
  | ended
  /-- The text is not JSON. -/
  | malformed
  /-- The text is JSON that does not fit the type. -/
  | misfit
  deriving DecidableEq, Repr

/-- What is kept of a number: its value if it is an integer written as one, or the problem that
cuts it off. The zero with a sign is no integer. -/
inductive Number where
  | integer (n : Int)
  | other
  | tooLarge
  | cut (p : Problem)
  deriving DecidableEq, Repr

/-- What is kept of a text: its characters, or the problem that cuts it off, or that half of a
surrogate pair stands in it and the problem, if any, that cuts it off later. -/
inductive Spelling where
  | plain (s : String)
  | cut (p : Problem)
  | unpaired (later : Option Problem)
  deriving DecidableEq, Repr

mutual

/-- A value, as far as the text gives one: it is `absent` if the text ends before it, and
`broken` if no value can begin as the text goes on. -/
inductive Value where
  | absent
  | null
  | truth (b : Bool)
  | number (n : Number)
  | text (s : Spelling)
  | list (items : Items)
  | record (members : Members)
  | broken (p : Problem)

/-- The items of a list. A problem after an item, where a comma or the end of the list should
stand, is `broken`. -/
inductive Items where
  | done
  | more (head : Value) (tail : Items)
  | broken (p : Problem)

/-- The members of a record. Where something else stands in the place of a key, or nothing, the
member is `misplaced`; a problem after a member, where a comma or the end of the record should
stand, is `broken`. -/
inductive Members where
  | done
  | more (key : Spelling) (value : Value) (tail : Members)
  | misplaced (p : Problem)
  | broken (p : Problem)

end

deriving instance Repr for Value, Items, Members

instance : Inhabited Value := ⟨.null⟩

/-! ## Building trees -/

def Value.int (n : Int) : Value := .number (.integer n)

def Value.nat (n : Nat) : Value := .int n

def Value.str (s : String) : Value := .text (.plain s)

/-- The items of a list of values. -/
def Items.ofList : List Value → Items
  | [] => .done
  | v :: vs => .more v (ofList vs)

def Value.ofList (vs : List Value) : Value := .list (.ofList vs)

/-- The members of a list of keys and values. -/
def Members.ofList : List (String × Value) → Members
  | [] => .done
  | (key, v) :: rest => .more (.plain key) v (ofList rest)

def Value.ofMembers (ms : List (String × Value)) : Value := .record (.ofList ms)

/-- The value of an option, null for none. -/
def Value.ofOption : Option Value → Value
  | some v => v
  | none => .null

/-! ## Problems in a tree -/

/-- The problem of a value that is not of the kind that is wanted. -/
def Value.mismatch : Value → Problem
  | .absent => .ended
  | .broken p => p
  | .text (.cut p) => p
  | .text (.unpaired _) => .malformed
  | .number .tooLarge => .malformed
  | .number (.cut p) => p
  | _ => .misfit

/-- The problem of a number that is passed over. -/
def Number.flaw? : Number → Option Problem
  | .cut _ => some .malformed
  | .integer _ | .other | .tooLarge => none

/-- The problem that ends a text which is passed over. -/
def Spelling.flaw? : Spelling → Option Problem
  | .plain _ => none
  | .cut p => some p
  | .unpaired later => later

mutual

/-- The first problem in a value that is passed over. -/
def Value.flaw? : Value → Option Problem
  | .absent => some .ended
  | .null | .truth _ => none
  | .number n => n.flaw?
  | .text s => s.flaw?
  | .list items => items.flaw?
  | .record members => members.flaw?
  | .broken p => some p

/-- The first problem in items that are passed over. -/
def Items.flaw? : Items → Option Problem
  | .done => none
  | .more head tail => head.flaw?.or tail.flaw?
  | .broken p => some p

/-- The first problem in members that are passed over. -/
def Members.flaw? : Members → Option Problem
  | .done => none
  | .more key value tail => key.flaw?.or (value.flaw?.or tail.flaw?)
  | .misplaced p | .broken p => some p

end

end BugFeed.Json
