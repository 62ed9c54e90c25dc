import LogRelay.Settings.Environment
import LogRelay.Toml.Document
import LogRelay.Json.Reader

/-!
# Loading the settings of a node

Settings come from a file, whose format is told by its extension, and then from the
environment.  A file may be named without its extension.
-/

namespace LogRelay

/-- Why settings could not be loaded. -/
inductive LoadError where
  /-- There is no such file, or its format is not known, or it is not well formed. -/
  | unreadable (path : String)
  /-- A setting has a value that it cannot have, or a required one is missing. -/
  | unfit
deriving DecidableEq, Inhabited

/-- The message of an error. -/
def LoadError.message : LoadError → String
  | unreadable path => "Failed to build configuration from '" ++ path ++ "'"
  | unfit => "Failed to deserialize configuration"

/-- A file with settings. -/
structure SettingsFile where
  name : String
  content : String

namespace SettingsFile

/-- A format of settings. -/
inductive Format where
  | toml
  | json
deriving DecidableEq

/-- The formats with their extensions. -/
def formats : List (String × Format) := [("toml", .toml), ("json", .json)]

/-- What follows the last point of a name; a point at the very start does not count. -/
def suffix? (name : String) : Option String :=
  let reversed := name.toList.reverse
  let suffix := reversed.takeWhile (· != '.')
  if suffix.length + 1 < reversed.length then some (String.ofList suffix.reverse) else none

/-- Whether the part of a name between two strokes names the folder that it stands in. -/
def isIdle (part : String) : Bool := part.isEmpty || part == "."

/-- The folders on the way to a file and the file itself. -/
def route (name : String) : List String := (name.splitOn "/").filter fun part => !isIdle part

/-- Whether a name can only be the name of a folder. -/
def isFolder (name : String) : Bool := ((name.splitOn "/").getLast?.map isIdle).getD true

/-- The file at the end of a way. -/
def at? (files : List SettingsFile) (way : List String) : Option SettingsFile :=
  files.find? fun file => route file.name == way

/-- The file that is meant by a name, and its format. -/
def find? (files : List SettingsFile) (name : String) : Option (SettingsFile × Format) := do
  let last ← (route name).getLast?
  match if isFolder name then none else at? files (route name) with
  | some file => return (file, ← formats.lookup (← suffix? last))
  | none =>
      formats.findSome? fun (suffix, format) =>
        (at? files ((route name).dropLast ++ [last ++ "." ++ suffix])).map fun file =>
          (file, format)

/-- How deep lists and objects may be nested in a file. -/
def nestingLimit : Nat := 127

/-- The text without the mark of its encoding in front. -/
def unmarked (content : String) : String :=
  match content.toList with
  | '\uFEFF' :: rest => String.ofList rest
  | _ => content

/-- The settings in a file: a table. -/
def read? (content : String) : Format → Option Setting
  | .toml => Toml.parse? (unmarked content)
  | .json => do
      let json ← Json.parse? (unmarked content)
      match json with
      | .object _ => if json.isSound nestingLimit then some (Setting.ofJson json) else none
      | _ => none

end SettingsFile

namespace NodeConfig

/-- The settings of all sources together, later sources coming last. -/
def combine (sources : List Setting) : Setting := sources.foldl Setting.overlay (.table [])

/-- Loads the settings from one of the files and the environment; `path` names the file in
messages. -/
def load (files : List SettingsFile) (name path : String)
    (environment : List (String × String)) : Except LoadError NodeConfig :=
  match (SettingsFile.find? files name).bind fun (file, format) =>
      SettingsFile.read? file.content format with
  | none => .error (.unreadable path)
  | some settings =>
      match Setting.lenient.node? (combine [settings, Environment.settings environment]) with
      | some config => .ok config
      | none => .error .unfit

end NodeConfig

end LogRelay
