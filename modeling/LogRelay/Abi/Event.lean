import LogRelay.Abi.TypeText
import LogRelay.Chain.Log
import LogRelay.Keccak

/-!
# Events of a contract

An event has a name and parameters.  Its signature lists the types of the parameters
as they are written, and the hash of the signature is the selector, which logs of the
event carry as their first topic.  Anonymous events have no selector in their logs.
-/

namespace LogRelay

/-- A parameter as the interface of a contract declares it. -/
structure Param where
  /-- The name, which may be empty. -/
  name : String
  /-- The written type; for a type with components it is `tuple` with array suffixes. -/
  type : String
  /-- The components of the type. -/
  components : List Param
deriving Inhabited

namespace Param

/-- What stands for the components in the written type. -/
def tupleMark : String := "tuple"

mutual

/-- The type as it stands in a signature. -/
def signature : Param → String
  | ⟨_, type, components⟩ =>
      if components.isEmpty then type
      else
        "(" ++ ",".intercalate (signatures components) ++ ")" ++
          String.ofList (type.toList.drop tupleMark.length)

/-- The types as they stand in a signature. -/
def signatures : List Param → List String
  | [] => []
  | param :: rest => signature param :: signatures rest

end

mutual

/-- The type of a parameter. -/
def resolve : Param → Except TypeError AbiType
  | ⟨_, type, components⟩ => do
      let written ← TypeText.read type
      if components.isEmpty then written.resolve
      else return TypeText.wrap (.tuple (← resolveAll components)) written.suffixes

/-- The types of parameters; the first that has none decides the error. -/
def resolveAll : List Param → Except TypeError (List AbiType)
  | [] => .ok []
  | param :: rest => do
      let type ← resolve param
      return type :: (← resolveAll rest)

end

end Param

/-- A parameter of an event. -/
structure EventParam where
  param : Param
  /-- Whether its value, or the hash of its value, is a topic of the log. -/
  indexed : Bool
deriving Inhabited

/-- An event. -/
structure Event where
  name : String
  inputs : List EventParam
  /-- Whether its logs carry no selector. -/
  anonymous : Bool
deriving Inhabited

namespace Event

/-- The signature. -/
def signature (event : Event) : String :=
  event.name ++ "(" ++ ",".intercalate (event.inputs.map (·.param.signature)) ++ ")"

/-- The selector. -/
def selector (event : Event) : Hash := Keccak.hashText event.signature

end Event

end LogRelay
