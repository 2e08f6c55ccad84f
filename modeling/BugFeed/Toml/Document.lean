import BugFeed.Settings.Setting

/-!
# TOML documents

A document is a table that statements build: the head of a table, the head of the next table of a
list, and a value for a key. Every table remembers how it came to be, because that decides who may
still add to it.

* A table with a head of its own is opened once.
* A table that is only on the way to another one may still be opened.
* A table that came to be by points in a key takes entries by points in keys only.
* A table or list written as a value takes nothing.
-/

namespace BugFeed.Toml

set_option autoImplicit false

open Settings (Setting Entries Items Scalar)

/-- How a node of a document came to be. -/
inductive Origin where
  /-- By a head of its own. -/
  | opened
  /-- On the way of a head to another table. -/
  | passed
  /-- On the way of a key to its value. -/
  | dotted
  /-- As a value. -/
  | closed
  /-- As a date. -/
  | dated
  deriving DecidableEq, Repr

/-- A table that is being built. -/
abbrev Table := Origin × Entries Origin

/-- Changes a table, if that is allowed. -/
abbrev Change := Table → Option Table

def Table.toTree (t : Table) : Setting Origin := .table t.1 t.2

/-- Changes a tree that is a table or a list of tables with heads; of a list its last table. -/
def changeTree (byKey : Bool) (change : Change) : Setting Origin → Option (Setting Origin)
  | .table origin entries =>
    if origin = .closed ∨ (byKey ∧ origin = .opened) then none
    else (change (origin, entries)).map Table.toTree
  | .list .opened items =>
    let changeLast : Setting Origin → Option (Setting Origin)
      | .table origin entries => (change (origin, entries)).map Table.toTree
      | _ => none
    (items.alterLast? changeLast).map (.list .opened)
  | _ => none

/-- Changes the table that some keys lead to from another one. Tables that are not there yet are
made on the way, by a key or by a head. -/
def changeAt (byKey : Bool) (change : Change) : List String → Change
  | [], table => change table
  | key :: keys, (origin, entries) =>
    let made : Setting Origin := .table (if byKey then .dotted else .passed) .done
    let found := (entries.get? key).getD made
    (changeTree byKey (changeAt byKey change keys) found).map fun value =>
      (origin, entries.set key value)

/-- Puts a value under a key that is not there yet. The table came to be by points in keys if
there are points before the key, and only then. -/
def assign (pointed : Bool) (key : String) (value : Setting Origin) : Change
  | (origin, entries) =>
    if pointed ≠ decide (origin = .dotted) ∨ (entries.get? key).isSome then none
    else some (origin, entries.set key value)

/-- Puts a value under a key with points. -/
def assignAt (keys : List String) (key : String) (value : Setting Origin) : Change :=
  changeAt true (assign (!keys.isEmpty) key value) keys

/-- Opens the table under a key. It stands behind all those that are there already. -/
def openTable (key : String) : Change
  | (origin, entries) =>
    match entries.get? key with
    | none => some (origin, entries.set key (.table .opened .done))
    | some (.table .passed inner) =>
      some (origin, (entries.erase key).set key (.table .opened inner))
    | some _ => none

/-- Adds a table to the list under a key. -/
def openNext (key : String) : Change
  | (origin, entries) =>
    let next : Setting Origin := .table .opened .done
    match entries.get? key with
    | none => some (origin, entries.set key (.list .opened (.more next .done)))
    | some (.list .opened items) =>
      some (origin, entries.set key (.list .opened (items.push next)))
    | some _ => none

/-- A statement of a document. The keys before the last one are apart. -/
inductive Statement where
  | head (keys : List String) (key : String)
  | nextHead (keys : List String) (key : String)
  | value (keys : List String) (key : String) (value : Setting Origin)

/-- A document that is being built: its table and the keys of the table that was opened last. -/
structure Draft where
  root : Table
  current : List String

/-- A document without a statement. -/
def Draft.blank : Draft := ⟨(.opened, .done), []⟩

/-- Adds a statement to a document. -/
def Draft.add (d : Draft) : Statement → Option Draft
  | .head keys key => do
    let root ← changeAt false (openTable key) keys d.root
    some ⟨root, keys ++ [key]⟩
  | .nextHead keys key => do
    let root ← changeAt false (openNext key) keys d.root
    some ⟨root, keys ++ [key]⟩
  | .value keys key value => do
    let root ← changeAt false (assignAt keys key value) d.current d.root
    some { d with root := root }

end BugFeed.Toml
