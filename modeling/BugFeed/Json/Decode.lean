import BugFeed.Catalog
import BugFeed.Json.Read
import BugFeed.Time.Relaxed

/-!
# Decoding JSON trees

A decoder takes a tree to a value of a type or gives the first problem that it meets. Records are
decoded member by member, in the order of the text: a member with a known key fills its slot, a
second one with the same key is a misfit, and a member with another key is passed over. A record
may also be written as the list of its values in the order of the slots. One of several variants
is written as its name, or as a record whose only member has the name as key.
-/

namespace BugFeed.Json

set_option autoImplicit false

/-- A way to take a tree to a value. -/
abbrev Decoder (α : Type) := Value → Except Problem α

/-- The value of a whole text, with nothing but blanks around it. -/
def decodeText {α : Type} (decode : Decoder α) (s : String) : Except Problem α := do
  let (tree, rest) := read s
  let a ← decode tree
  match rest.map skipBlanks with
  | some [] => pure a
  | _ => throw .malformed

/-! ## Simple values -/

def string : Decoder String
  | .text (.plain s) => .ok s
  | v => .error v.mismatch

/-- A natural number below `bound`. -/
def below (bound : Nat) : Decoder Nat
  | .number (.integer n) => if 0 ≤ n ∧ n < bound then .ok n.toNat else .error .misfit
  | v => .error v.mismatch

def word64 (v : Value) : Except Problem UInt64 := UInt64.ofNat <$> below UInt64.size v

def word16 (v : Value) : Except Problem UInt16 := UInt16.ofNat <$> below UInt16.size v

/-- An instant, in the relaxed form. -/
def instant (v : Value) : Except Problem Instant := do
  match Relaxed.read? (← string v) with
  | some t => pure t
  | none => throw .misfit

def optional {α : Type} (decode : Decoder α) : Decoder (Option α)
  | .null => .ok none
  | v => some <$> decode v

/-! ## Lists and maps -/

def Items.decode {α : Type} (decode : Decoder α) : Items → Except Problem (List α)
  | .done => .ok []
  | .more head tail => do
    let a ← decode head
    let rest ← tail.decode decode
    pure (a :: rest)
  | .broken p => .error p

def listOf {α : Type} (decode : Decoder α) : Decoder (List α)
  | .list items => items.decode decode
  | v => .error v.mismatch

/-- The values of members, put into a catalog in turn. -/
def Members.decode {α : Type} (decode : Decoder α) (c : Catalog α) :
    Members → Except Problem (Catalog α)
  | .done => .ok c
  | .more (.plain key) v tail => do
    let a ← decode v
    tail.decode decode (c.insert key a)
  | .more (.cut p) _ _ => .error p
  | .more (.unpaired _) _ _ => .error .malformed
  | .misplaced p | .broken p => .error p

/-- A record with any keys; of two members with one key the later one counts. -/
def catalogOf {α : Type} (decode : Decoder α) : Decoder (Catalog α)
  | .record members => members.decode decode .empty
  | v => .error v.mismatch

/-! ## Records -/

/-- A field of a record that is being read into drafts of type `δ`. -/
structure Slot (δ : Type) where
  name : String
  filled : δ → Bool
  fill : δ → Value → Except Problem δ

/-- The slot of a field that a draft holds once it is read. -/
def slot {δ β : Type} (name : String) (get : δ → Option β) (put : δ → β → δ)
    (decode : Decoder β) : Slot δ where
  name := name
  filled d := (get d).isSome
  fill d v := put d <$> decode v

/-- Fills slots from members. -/
def Members.fill {δ : Type} (slots : List (Slot δ)) (d : δ) : Members → Except Problem δ
  | .done => .ok d
  | .more (.plain key) v tail =>
    match slots.find? fun s => s.name == key with
    | some s =>
      if s.filled d then .error .misfit
      else do
        let d ← s.fill d v
        tail.fill slots d
    | none =>
      match v.flaw? with
      | some p => .error p
      | none => tail.fill slots d
  | .more (.cut p) _ _ => .error p
  | .more (.unpaired _) _ _ => .error .malformed
  | .misplaced p | .broken p => .error p

/-- Fills slots from items, in order; items beyond the last slot are malformed. -/
def Items.fill {δ : Type} : List (Slot δ) → δ → Items → Except Problem δ
  | _, d, .done => .ok d
  | s :: slots, d, .more v tail => do
    let d ← s.fill d v
    tail.fill slots d
  | [], _, .more _ _ => .error .malformed
  | _, _, .broken p => .error p

/-- A record with the given slots, made from the draft that they fill. -/
def recordOf {δ α : Type} (slots : List (Slot δ)) (blank : δ)
    (finish : δ → Except Problem α) : Decoder α
  | .record members => members.fill slots blank >>= finish
  | .list items => items.fill slots blank >>= finish
  | v => .error v.mismatch

/-- The content of a field that must be there. -/
def required {α : Type} : Option α → Except Problem α
  | some a => .ok a
  | none => .error .misfit

/-! ## Variants -/

/-- The content of a variant. -/
inductive Content (α : Type) where
  /-- A variant that is only its name. -/
  | name (a : α)
  /-- A variant with a value. -/
  | carries (decode : Decoder α)

/-- The content of a variant after its name. -/
def Content.decode {α : Type} : Content α → Decoder α
  | .name a, .null => .ok a
  | .name _, v => .error v.mismatch
  | .carries decode, v => decode v

/-- One of several variants. -/
def oneOf {α : Type} (variants : List (String × Content α)) : Decoder α
  | .absent => .error .ended
  | .text (.plain key) =>
    match variants.lookup key with
    | some (.name a) => .ok a
    | _ => .error .misfit
  | .text s => .error (Value.text s).mismatch
  | .record (.more (.plain key) v tail) =>
    match variants.lookup key with
    | some content => do
      let a ← content.decode v
      match tail with
      | .done => pure a
      | .broken p => throw p
      | _ => throw .malformed
    | none => .error .misfit
  | .record (.more s _ _) => .error (Value.text s).mismatch
  | .record (.misplaced p) | .record (.broken p) => .error p
  | _ => .error .malformed

end BugFeed.Json
