import LogRelay.Field
import LogRelay.Json.Number

/-!
# JSON values

The members of an object are kept as they are written, in their order and with
every repetition, because a record refuses a member that stands twice.  A text with half
a pair of surrogates stands for no characters.  It, and an object with such a name, can
be passed over but not read, and is kept as it was written.

A record is read either from an object, by the names of its fields, or from a list,
by their order.  What its fields are read from is decided first (`record?`); a field
without a value then either has a default or makes the whole record fail.
-/

namespace LogRelay

/-- A JSON value. -/
inductive Json where
  | null
  | bool (value : Bool)
  | number (value : Json.Number)
  | string (value : String)
  | list (items : List Json)
  | object (members : List (String × Json))
  /-- A text that stands for no characters, or an object with such a name, as it was written. -/
  | verbatim (written : String)
deriving Inhabited

namespace Json

/-- The values of all members with the given name. -/
def named (members : List (String × Json)) (name : String) : List Json :=
  (members.filter fun member => member.1 == name).map (·.2)

/-- The value of the only member with the given name, if there is one; fails if there are
several. -/
def field? (members : List (String × Json)) (name : String) : Option (Option Json) :=
  match named members name with
  | [] => some none
  | [value] => some (some value)
  | _ => none

/-- What the fields of a record with the given names are read from. -/
def record? (names : List String) : Json → Option (List (Option Json))
  | object members => names.mapM (field? members)
  | list items =>
      if items.length ≤ names.length then
        some (items.map some ++ List.replicate (names.length - items.length) none)
      else none
  | _ => none

/-- A value that may be `null`. -/
def optional {α : Type} (read? : Json → Option α) : Json → Option (Option α)
  | null => some none
  | json => (read? json).map some

/-- A truth value. -/
def bool? : Json → Option Bool
  | bool value => some value
  | _ => none

/-- A text. -/
def text? : Json → Option String
  | string value => some value
  | _ => none

/-- A whole number that is not negative. -/
def nat? : Json → Option Nat
  | number value => value.toNat?
  | _ => none

/-- A whole number with its sign. -/
def int? : Json → Option Int
  | number value => value.toInt?
  | _ => none

/-- A number in binary floating point. -/
def float? : Json → Option Float
  | number value => value.toFloat?
  | _ => none

/-- A number of one byte. -/
def byte? (json : Json) : Option UInt8 := do
  let value ← json.nat?
  if value < 256 then some (UInt8.ofNat value) else none

/-- A list whose items are all read alike. -/
def list? {α : Type} (read? : Json → Option α) : Json → Option (List α)
  | list items => items.mapM read?
  | _ => none

mutual

/-- Whether lists and objects are nested at most `depth` deep, every number has a value and every
text has characters. -/
def isSound (depth : Nat) : Json → Bool
  | number value => value.toFloat?.isSome
  | verbatim _ => false
  | list items => 0 < depth && areSound (depth - 1) items
  | object members => 0 < depth && membersAreSound (depth - 1) members
  | _ => true

/-- Whether all items are sound. -/
def areSound (depth : Nat) : List Json → Bool
  | [] => true
  | item :: rest => isSound depth item && areSound depth rest

/-- Whether the values of all members are sound. -/
def membersAreSound (depth : Nat) : List (String × Json) → Bool
  | [] => true
  | (_, value) :: rest => isSound depth value && membersAreSound depth rest

end

end Json

end LogRelay
