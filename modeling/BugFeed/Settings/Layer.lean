import BugFeed.Number.Written
import BugFeed.Settings.Setting

/-!
# Layers of settings

Settings come in layers: the present ones, a file, the environment. A later layer is laid over the
earlier ones entry by entry. A table is laid over a table key by key, so what it does not mention
stays; over anything else it begins a new table, but only with its first entry, so that an empty
table changes nothing. All other values take the place of what was there. Keys do not
distinguish capital letters.

The entries of a layer stand at paths. A key of a layer that is written like a path is one: names
with points between them, and places of a list in brackets. A place below zero counts from the end
of the list; one that lies before its beginning or beyond all lists cannot be reached, and then the
layers give nothing.
-/

namespace BugFeed.Settings

set_option autoImplicit false

/-- The source that a setting comes from, if one is known. -/
abbrev Origin := Option String

/-- A tree whose nodes know where they come from. -/
abbrev Node := Setting Origin

/-- The sign of the unit kelvin. -/
def kelvinSign : Char := '\u212a'

/-- The small letter for a capital one. Only ASCII letters stand in the paths and words of settings,
and of all other characters the sign of the unit kelvin alone becomes one of them. -/
def smallLetter (c : Char) : Char := if c = kelvinSign then 'k' else c.toLower

/-- Text with small letters for capital ones. -/
def lowercase (s : String) : String := String.ofList (s.toList.map smallLetter)

namespace Setting

/-- The blank node. -/
def blank : Node := .leaf none .blank

/-- The entries of a table with its origin; of anything else, those of a new table. -/
def asTable : Node → Origin × Entries Origin
  | .table origin entries => (origin, entries)
  | _ => (none, .done)

/-- The items of a list with its origin; of anything else, those of a new list. -/
def asList : Node → Origin × Items Origin
  | .list origin items => (origin, items)
  | _ => (none, .done)

/-- Puts a node under a key of a table. -/
def setKey (node : Node) (key : String) (value : Node) : Node :=
  .table node.asTable.1 (node.asTable.2.set key value)

/-- What stands under a key of a table. -/
def key? (node : Node) (key : String) : Option Node := node.asTable.2.get? key

end Setting

/-! ## Laying values over a node -/

mutual

/-- Lays a value over what stands under a key. -/
def Setting.lay (node : Node) (key : String) (value : Node) : Node :=
  match value with
  | .table _ entries =>
    let target := (node.key? (lowercase key)).getD (.table none .done)
    node.setKey (lowercase key) (entries.layOver target)
  | .list origin items => node.setKey (lowercase key) (.list origin items)
  | .leaf origin v => node.setKey (lowercase key) (.leaf origin v)
termination_by structural value

/-- Lays entries over a node, one by one. -/
def Entries.layOver (entries : Entries Origin) (node : Node) : Node :=
  match entries with
  | .done => node
  | .more key value tail => tail.layOver (node.lay key value)
termination_by structural entries

end

/-! ## Paths -/

/-- A step from a node to one below it. -/
inductive Step where
  | key (name : String)
  | place (index : Int)
  deriving DecidableEq, Repr

/-- Where an entry stands. -/
abbrev Path := List Step

/-- Every list is shorter than this. -/
def lengthBound : Nat := UInt32.size

/-- The place that an index means in a list of some length. -/
def placeOf? (length : Nat) (index : Int) : Option Nat :=
  let place := if index < 0 then length + index else index
  if 0 ≤ place ∧ place < lengthBound then some place.toNat else none

/-- Lays a value over the node at a path, if it can be reached. On the way, everything that is no
table or no list becomes one. -/
def layAt (value : Node) : Path → Node → Option Node
  | [], _ => some value
  | [.key name], node => some (node.lay name value)
  | .key name :: path, node =>
    (layAt value path ((node.key? name).getD .blank)).map (node.setKey name)
  | .place index :: path, node => do
    let (origin, items) := node.asList
    let place ← placeOf? items.length index
    let item ← layAt value path ((items.get? place).getD .blank)
    some (.list origin (items.put .blank place item))

namespace Path

/-- Whether a character may stand in a name of a path. -/
def inName (c : Char) : Bool := c.isAlphanum || c == ' ' || c == '_' || c == '-'

/-- Reads a name. -/
def readName? (cs : List Char) : Option (String × List Char) :=
  let name := cs.takeWhile inName
  if name.isEmpty then none else some (lowercase (String.ofList name), cs.dropWhile inName)

def skipBlanks (cs : List Char) : List Char := cs.dropWhile fun c => c == ' ' || c == '\t'

/-- Reads an index: a signed 64-bit number without a plus. -/
def readIndex? (cs : List Char) : Option (Int × List Char) :=
  let (sign, cs) := match cs with
    | '-' :: cs => (['-'], cs)
    | cs => ([], cs)
  let (digits, cs) := Text.spanDigits cs
  (readInt64? (String.ofList (sign ++ digits))).map fun index => (index, cs)

/-- Reads a place after the opening bracket. -/
def readPlace? (cs : List Char) : Option (Int × List Char) := do
  let (index, cs) ← readIndex? (skipBlanks cs)
  match skipBlanks cs with
  | ']' :: cs => some (index, cs)
  | _ => none

/-- Reads the steps after the first name. Each step takes a character at least. -/
def readSteps? : (fuel : Nat) → List Char → Option Path
  | _, [] => some []
  | 0, _ :: _ => none
  | fuel + 1, '.' :: cs => do
    let (name, cs) ← readName? cs
    let path ← readSteps? fuel cs
    some (.key name :: path)
  | fuel + 1, '[' :: cs => do
    let (index, cs) ← readPlace? cs
    let path ← readSteps? fuel cs
    some (.place index :: path)
  | _, _ :: _ => none

/-- The path that a key writes; a key that is not written like a path is a name by itself. -/
def ofKey (key : String) : Path :=
  let read : Option Path := do
    let (name, cs) ← readName? key.toList
    let path ← readSteps? cs.length cs
    some (.key name :: path)
  read.getD [.key key]

end Path

/-! ## Laying layers -/

/-- Entries, each under the key that writes its path. -/
abbrev Layer := List (String × Node)

/-- The entries of a table as a layer. -/
def Entries.toLayer : Entries Origin → Layer
  | .done => []
  | .more key value tail => (key, value) :: tail.toLayer

/-- Lays a layer over a node, if all its paths can be reached. -/
def layOn (node : Node) (layer : Layer) : Option Node :=
  layer.foldlM (fun node e => layAt e.2 (Path.ofKey e.1) node) node

/-- All layers, each laid over those before it, if all their paths can be reached. -/
def layAll (layers : List Layer) : Option Node := layers.foldlM layOn (.table none .done)

end BugFeed.Settings
