import LogRelay.Settings.Schema

/-!
# Values of settings

What a configuration consists of before it is known which setting a value belongs to.
Scalars are taken leniently: a number may stand in a text, a truth value counts as
one or zero, a fraction is rounded to the nearest whole number with halves going away
from zero, and any scalar may be taken as a text.
-/

namespace LogRelay

/-- A value of a setting. -/
inductive Setting where
  | nil
  | bool (value : Bool)
  /-- A whole number of 64 bits, with a sign or without. -/
  | int (value : Int)
  | float (value : Float)
  | text (value : String)
  | list (items : List Setting)
  /-- Values under names, each of them once. -/
  | table (entries : List (String × Setting))
deriving Inhabited

namespace Setting

/-- The words that stand for truth values. -/
def truth? (word : List Char) : Option Bool :=
  let lower := String.ofList (word.map Char.toLower)
  if ["true", "on", "yes"].contains lower then some true
  else if ["false", "off", "no"].contains lower then some false
  else none

/-- As a number of 64 bits. -/
def count? : Setting → Option UInt64
  | int value => if 0 ≤ value then some (UInt64.ofNat value.toNat) else none
  | bool value => some (UInt64.ofNat value.toNat)
  | float value => some (UInt64.ofNat (Decimal.saturate (Decimal.roundHalfAway value)))
  | text value =>
      match truth? value.toList with
      | some truth => some (UInt64.ofNat truth.toNat)
      | none => (Decimal.uint64? value.toList).map UInt64.ofNat
  | _ => none

/-- A truth value as a number in binary floating point. -/
def floatOfBool (value : Bool) : Float := if value then 1.0 else 0.0

/-- As a number in binary floating point. -/
def factor? : Setting → Option Float
  | int value => some (Float.ofInt value)
  | bool value => some (floatOfBool value)
  | float value => some value
  | text value =>
      match truth? value.toList with
      | some truth => some (floatOfBool truth)
      | none => Decimal.float? value
  | _ => none

/-- As a text. -/
def text? : Setting → Option String
  | text value => some value
  | int value => some (toString value)
  | bool value => some (toString value)
  | float value => some (Decimal.Layout.plain.text value)
  | _ => none

/-- As a name: a text, or the only name in a table. -/
def choice? : Setting → Option String
  | text value => some value
  | table [(name, _)] => some name
  | _ => none

/-- As a record: from a table by name, from a list by position. -/
def record? (names : List String) : Setting → Option (List (Option Setting))
  | table entries => some (names.map fun name => entries.lookup name)
  | list items =>
      some ((items.take names.length).map some ++
        List.replicate (names.length - items.length) none)
  | _ => none

/-- The lenient way in which settings are taken. -/
def lenient : SettingNotation Setting where
  record? := record?
  count? := count?
  factor? := factor?
  text? := text?
  choice? := choice?
  isAbsent
    | nil => true
    | _ => false

mutual

/-- The value that a JSON value stands for.  Of members with the same name the last one
counts, and numbers that are not whole or do not fit in 64 bits are in binary floating point. -/
def ofJson : Json → Setting
  | .null | .verbatim _ => nil
  | .bool value => bool value
  | .number value =>
      match value.toInt? with
      | some whole => int whole
      | none => float (value.toFloat?.getD 0)
  | .string value => text value
  | .list items => list (ofJsonItems items)
  | .object members => table (ofJsonMembers members)

/-- The values of a list. -/
def ofJsonItems : List Json → List Setting
  | [] => []
  | item :: rest => ofJson item :: ofJsonItems rest

/-- The values of an object. -/
def ofJsonMembers : List (String × Json) → List (String × Setting)
  | [] => []
  | (name, value) :: rest =>
      let rest := ofJsonMembers rest
      if (rest.lookup name).isSome then rest else (name, ofJson value) :: rest

end

end Setting

end LogRelay
