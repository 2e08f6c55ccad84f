import BugFeed.Metrics
import BugFeed.Number.Binary64

/-!
# Metrics in text

A registry shows the counters that have been registered with it, in the text format that
collectors of metrics read: families in the order of their names, each with a line of help and a
line with its type, then one line for each of its counters in the order of their label values. A
family without counters is left out. Values pass through floating-point numbers.
-/

namespace BugFeed

set_option autoImplicit false

/-- A place where counters are registered and shown, with a word put before every name. -/
structure Registry where
  qualifier : Option String
  registered : Bool
  deriving DecidableEq, Repr

namespace Registry

/-- A registry in which nothing is registered. The word before the names may not be empty. -/
def new? (qualifier : Option String) : Option Registry :=
  if qualifier = some "" then none else some ⟨qualifier, false⟩

/-- Registers all counters, and whether none was registered before. -/
def register (r : Registry) : Registry × Bool := ({ r with registered := true }, !r.registered)

/-- A label value between its quotes. -/
def escapeLabel (s : String) : String :=
  String.ofList (s.toList.flatMap fun c =>
    if c = '\\' then ['\\', '\\']
    else if c = '"' then ['\\', '"']
    else if c = '\n' then ['\\', 'n']
    else [c])

/-- The name of a family as the registry shows it. -/
def nameOf (r : Registry) (f : CounterFamily) : String :=
  match r.qualifier with
  | some q => q ++ "_" ++ f.name
  | none => f.name

/-- The line of a counter. -/
def counterLine (r : Registry) (l : Ledger) (c : Counter) : String :=
  let labels := match c.family.label?, c.value? with
    | some label, some v => "\x7b" ++ label ++ "=\"" ++ escapeLabel v ++ "\"\x7d"
    | _, _ => ""
  r.nameOf c.family ++ labels ++ " " ++ (Binary64.ofNat (l.total c)).display ++ "\n"

/-- The lines of a family. -/
def familyText (r : Registry) (l : Ledger) (f : CounterFamily) : String :=
  match l.countersOf f with
  | [] => ""
  | counters =>
    "# HELP " ++ r.nameOf f ++ " " ++ f.help ++ "\n# TYPE " ++ r.nameOf f ++ " counter\n" ++
      String.join (counters.map (r.counterLine l))

def text (r : Registry) (l : Ledger) : String :=
  if r.registered then String.join (CounterFamily.all.map (r.familyText l)) else ""

end Registry

end BugFeed
