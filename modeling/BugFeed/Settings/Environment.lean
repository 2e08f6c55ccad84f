import BugFeed.Catalog
import BugFeed.Number.Written
import BugFeed.Settings.Layer

/-!
# Settings from the environment

A variable is a setting if its name begins with the word for settings, in any case. Two low lines
in the rest of the name stand for the point of a path. A variable that holds no text is no
setting; the text of the others is taken as a truth value, as a whole number, as a floating-point
number or as itself, whichever it is first.
-/

namespace BugFeed.Settings

set_option autoImplicit false

/-- The texts of variables under their names. -/
abbrev Environment := Catalog String

namespace Environment

/-- What is named as the origin of settings from the environment. -/
def origin : String := "the environment"

/-- The beginning of the names of settings. -/
def marker : List Char := "informer__".toList

/-- A name with a point for every two low lines. -/
def pointed : List Char → List Char
  | '_' :: '_' :: cs => '.' :: pointed cs
  | c :: cs => c :: pointed cs
  | [] => []

/-- The key of a variable that is a setting. -/
def keyOf? (name : String) : Option String :=
  let name := (lowercase name).toList
  if name.take marker.length = marker then
    some (String.ofList (pointed (name.drop marker.length)))
  else none

/-- The value that the text of a variable writes. -/
def scalarOf (text : String) : Scalar :=
  if lowercase text = "true" then .truth true
  else if lowercase text = "false" then .truth false
  else
    match readInt64? text with
    | some n => .integer n
    | none =>
      match Binary64.read? text with
      | some x => .float x
      | none => .text text

/-- The setting of a name and the text that a variable of that name holds, if it is one. -/
def settingOf? (name text : String) : Option (String × Node) :=
  if text.isEmpty then none
  else (keyOf? name).map fun key => (key, .leaf (some origin) (scalarOf text))

/-- The settings of an environment. -/
def layer (environment : Environment) : Layer :=
  environment.entries.filterMap fun e => settingOf? e.1 e.2

end Environment

end BugFeed.Settings
