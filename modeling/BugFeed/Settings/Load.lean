import BugFeed.Settings.Environment
import BugFeed.Settings.Typed
import BugFeed.Toml.Read

/-!
# Loading settings

Settings are loaded in layers. At first these are the defaults, the file that a variable of the
environment names, if it does, and its variables that are settings. Loaded settings may be
overridden by a file and by the environment at that time.

A file is found under its name, and must then end in `.toml`, or else under its name with that
ending. Slashes at the end of a name say that it is no file by itself, so it is found only with the
ending.
-/

namespace BugFeed.Settings

set_option autoImplicit false

/-- The texts of files under their names. -/
abbrev Files := Catalog String

/-- The variable that names the file with the settings. -/
def fileVariable : String := "CONFIG_PATH"

/-- The ending of files with settings. -/
def ending : String := ".toml"

namespace Files

/-- Whether a part of a path between slashes stays where it is. -/
def staysPut (part : String) : Bool := part.isEmpty || part == "."

/-- The part of a path that leads to the folder above. -/
def upward : String := ".."

/-- The texts between the slashes of a path. -/
def splitAtSlashes (name : String) : List String :=
  (name.toList.splitOn '/').map String.ofList

/-- The parts of a path, without those that stay where they are. -/
def partsOf (name : String) : List String :=
  (splitAtSlashes name).filter fun part => !staysPut part

/-- A path of some parts. -/
def joined (parts : List String) : String := "/".intercalate parts

/-- Whether there is a folder at a path. -/
def hasFolder (files : Files) (parts : List String) : Bool :=
  parts.isEmpty || files.entries.any fun e => (joined parts ++ "/").toList.isPrefixOf e.1.toList

/-- The path that some parts lead to, one after another through folders, from one that is given
with its last part first. -/
def follow? (files : Files) (reached : List String) : List String → Option (List String)
  | [] => some reached.reverse
  | part :: parts =>
    if !files.hasFolder reached.reverse then none
    else if part == upward then
      match reached with
      | [] => none
      | _ :: above => files.follow? above parts
    else files.follow? (part :: reached) parts

/-- The text of the file at a path. -/
def textAt? (files : Files) (parts : List String) : Option String :=
  (files.follow? [] parts).bind fun reached => files.get? (joined reached)

/-- Whether the last part of a name ends in the ending and is more than that. -/
def hasEnding (last : String) : Bool :=
  ending.toList.isSuffixOf last.toList && last ≠ ending

/-- Whether a name may be that of a file as it stands. -/
def namesFile (name : String) : Bool :=
  match (splitAtSlashes name).getLast? with
  | some last => !staysPut last && last ≠ upward
  | none => false

/-- The file that is meant by a name: its plain name and its text. -/
def find (files : Files) (name : String) : Except LoadFault (String × String) :=
  match (partsOf name).reverse with
  | [] => .error (.noFile name)
  | last :: above =>
    let at? (last : String) : Option (String × String) :=
      let parts := (last :: above).reverse
      (files.textAt? parts).map fun text => (joined parts, text)
    if name.toList.head? == some '/' || last == upward then .error (.noFile name)
    else
      let exact := if namesFile name then at? last else none
      match exact, at? (last ++ ending) with
      | some found, _ => if hasEnding last then .ok found else .error (.noFormat name)
      | none, some found => .ok found
      | none, none => .error (.noFile name)

/-- The text of a file without the mark of byte order that it may begin with. What the text is
written in may allow another mark. -/
def withoutMark (text : String) : String :=
  match text.toList with
  | '\ufeff' :: cs => String.ofList cs
  | _ => text

/-- The settings in the file that is meant by a name. -/
def layer (files : Files) (name : String) : Except LoadFault Layer := do
  let (origin, text) ← files.find name
  match Toml.read? (withoutMark text) with
  | some entries => pure ((entries.marked (some origin)).toLayer)
  | none => throw (.malformed origin)

end Files

end BugFeed.Settings

namespace BugFeed.InformerConfig

open Settings

/-- The settings that layers give. -/
def ofLayers (layers : List Layer) : Except LoadFault InformerConfig :=
  match layAll layers with
  | some node => ofNode node
  | none => .error .noPlace

/-- Loads settings: the defaults under the file that the environment names, if it does, under the
environment. -/
def load (files : Files) (environment : Environment) : Except LoadFault InformerConfig := do
  let defaults ← toLayer {}
  let file ← match environment.get? fileVariable with
    | some name => files.layer name
    | none => pure []
  ofLayers [defaults, file, environment.layer]

/-- Overrides settings by a file and the environment. -/
def override (c : InformerConfig) (files : Files) (name : String)
    (environment : Environment) : Except LoadFault InformerConfig := do
  let present ← c.toLayer
  let file ← files.layer name
  ofLayers [present, file, environment.layer]

end BugFeed.InformerConfig
