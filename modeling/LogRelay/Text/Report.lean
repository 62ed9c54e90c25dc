import LogRelay.Text.Quoted

/-!
# Reports of values

The notation in which values appear in diagnostics: a record shows its name and its
fields, a list stands in brackets, and an optional value is `Some(…)` or `None`.
-/

namespace LogRelay.Text

/-- A record with its fields. -/
def reportRecord (name : String) (fields : List (String × String)) : String :=
  let field := fun (label, value) => label ++ ": " ++ value
  name ++ " \x7b " ++ ", ".intercalate (fields.map field) ++ " \x7d"

/-- A record that shows only some of its fields. -/
def reportPart (name : String) (fields : List (String × String)) : String :=
  let field := fun (label, value) => label ++ ": " ++ value ++ ", "
  name ++ " \x7b " ++ String.join (fields.map field) ++ ".. \x7d"

/-- A name with one value in parentheses. -/
def reportCase (name value : String) : String := name ++ "(" ++ value ++ ")"

/-- A list in brackets. -/
def reportList (items : List String) : String := "[" ++ ", ".intercalate items ++ "]"

/-- A value that may be missing. -/
def reportOption : Option String → String
  | none => "None"
  | some value => reportCase "Some" value

end LogRelay.Text
