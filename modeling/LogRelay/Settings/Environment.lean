import LogRelay.Settings.Path

/-!
# Settings from the environment

A variable whose name begins with `VRF_ORACLE__` in any case holds a setting; the rest
of the name, in small letters and with a point for every two underscores, is its
path.  The value is a truth value or a number if it can be read as one, and a text
otherwise.
-/

namespace LogRelay.Environment

/-- The start of the names of variables that hold settings. -/
def mark : String := "vrf_oracle__"

/-- The small form of a letter.  Besides the capital letters of ASCII only the sign for kelvin
has a small form in ASCII. -/
def smallLetter (c : Char) : Char := if c = '\u212A' then 'k' else c.toLower

/-- The text with a point for every two underscores. -/
def separate : List Char → List Char
  | '_' :: '_' :: rest => '.' :: separate rest
  | c :: rest => c :: separate rest
  | [] => []

/-- The path that the name of a variable stands for, if it holds a setting. -/
def path? (name : String) : Option String :=
  let small := name.toList.map smallLetter
  if mark.toList.isPrefixOf small then
    some (String.ofList (separate (small.drop mark.length)))
  else none

/-- The value that a text stands for. -/
def ofText (text : String) : Setting :=
  let small := text.toList.map smallLetter
  if small = "true".toList then .bool true
  else if small = "false".toList then .bool false
  else
    match Decimal.int64? text.toList, Decimal.float? text with
    | some value, _ => .int value
    | none, some value => .float value
    | none, none => .text text

/-- The settings in an environment.  Of several variables for one path the last one counts. -/
def settings (environment : List (String × String)) : Setting :=
  environment.foldl (fun setting (name, value) =>
    match path? name with
    | none => setting
    | some path => .table (Setting.changeEntry (fun _ => ofText value) path setting.entries))
    (.table [])

end LogRelay.Environment
