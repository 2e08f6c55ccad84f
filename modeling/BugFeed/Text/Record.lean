/-!
# Records in words

A record is described by its name and, in braces, its fields with their names.
-/

namespace BugFeed.Text

set_option autoImplicit false

/-- A record in words: its name, and its fields, each with what it holds. -/
def describeRecord (name : String) (fields : List (String × String)) : String :=
  name ++ " \x7b " ++ ", ".intercalate (fields.map fun f => f.1 ++ ": " ++ f.2) ++ " \x7d"

def describeTruth (b : Bool) : String := if b then "true" else "false"

end BugFeed.Text
