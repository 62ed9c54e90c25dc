import LogRelay.Abi.Event
import LogRelay.Json.Reader

/-!
# The interface of a contract

The interface is a JSON list whose items are tagged by their member `type`.  Only
events matter here, but an item of any other kind has to be well formed too, and
there is at most one constructor, one fallback and one receiver.

An item may also be a list: its tag and then the values of its fields, in their
order.  That is not possible for items that state whether they change anything.
-/

namespace LogRelay

/-- An item of an interface. -/
inductive AbiItem where
  | event (event : Event)
  | function (name : String)
  /-- An error with which calls may fail. -/
  | error (name : String)
  | constructor
  /-- What answers calls of unknown functions. -/
  | fallback
  /-- What receives payments. -/
  | receive
deriving Inhabited

/-- How deep lists and objects may be nested in an interface. -/
def nestingLimit : Nat := 127

/-- A name: an identifier or nothing. -/
def abiNameOfJson? (json : Json) : Option String := do
  let name ← json.text?
  if name.isEmpty || isIdentifier name.toList then some name else none

namespace Param

/-- Reads a parameter and whether it says to be indexed.  Components are nested at most
`depth` deep. -/
def read? : (depth : Nat) → Json → Option (Param × Option Bool)
  | 0, _ => none
  | depth + 1, json => do
      match ← Json.record? ["name", "type", "indexed", "internalType", "components"] json with
      | [name, type, indexed, internalType, components] =>
          let name ← Field.withDefault "" Json.text? name
          let type ← Field.required Json.text? type
          let indexed ← Field.withDefault none (Json.optional Json.bool?) indexed
          let _ ← Field.withDefault none (Json.optional Json.text?) internalType
          let component (json : Json) : Option Param := do
            let (param, indexed) ← read? depth json
            if indexed.isSome then none else some param
          let components ← Field.withDefault [] (Json.list? component) components
          let named := name.isEmpty || isIdentifier name.toList
          let typed :=
            if components.isEmpty then TypeText.isWritten type
            else tupleMark.toList.isPrefixOf type.toList
          if named && typed then some (⟨name, type, components⟩, indexed) else none
      | _ => none

/-- Reads a parameter that cannot be indexed. -/
def ofJson? (json : Json) : Option Param := do
  let (param, indexed) ← read? nestingLimit json
  if indexed.isSome then none else some param

end Param

/-- Reads a parameter of an event. -/
def EventParam.ofJson? (json : Json) : Option EventParam := do
  let (param, indexed) ← Param.read? nestingLimit json
  return ⟨param, indexed.getD false⟩

/-- Reads an event. -/
def Event.ofJson? (json : Json) : Option Event := do
  match ← Json.record? ["name", "inputs", "anonymous"] json with
  | [name, inputs, anonymous] =>
      return {
        name := ← Field.required abiNameOfJson? name
        inputs := ← Field.required (Json.list? EventParam.ofJson?) inputs
        anonymous := ← Field.required Json.bool? anonymous }
  | _ => none

namespace AbiItem

/-- Reads an error. -/
def errorOfJson? (json : Json) : Option AbiItem := do
  match ← Json.record? ["name", "inputs"] json with
  | [name, inputs] =>
      let name ← Field.required abiNameOfJson? name
      let _ ← Field.required (Json.list? Param.ofJson?) inputs
      return error name
  | _ => none

/-- What an item may say about the changes it makes. -/
def mutabilities : List String := ["pure", "view", "nonpayable", "payable"]

/-- Reads one of `mutabilities`: the text itself, or an object with the text as its only key and
nothing under it. -/
def mutability? : Json → Option String
  | .string text => known? text
  | .object [(text, .null)] | .object [(text, .object [])] => known? text
  | _ => none
where
  /-- The text, if it is one of `mutabilities`. -/
  known? (text : String) : Option String :=
    if mutabilities.contains text then some text else none

/-- Whether what the item says about the changes it makes is well formed.  Two older members say
it in another way, and may not both be true if the newer one is missing. -/
def statesMutability (members : List (String × Json)) : Option Unit := do
  let stated ← Field.withDefault none (Json.optional mutability?)
    (← Json.field? members "stateMutability")
  let payable ← Field.withDefault none (Json.optional Json.bool?) (← Json.field? members "payable")
  let constant ← Field.withDefault none (Json.optional Json.bool?)
    (← Json.field? members "constant")
  if stated.isNone && payable == some true && constant == some true then none else some ()

/-- The parameters under the given name. -/
def params? (members : List (String × Json)) (name : String) : Option (List Param) := do
  Field.required (Json.list? Param.ofJson?) (← Json.field? members name)

/-- Reads a function. -/
def functionOfMembers? (members : List (String × Json)) : Option AbiItem := do
  let name ← Field.required abiNameOfJson? (← Json.field? members "name")
  let _ ← params? members "inputs"
  let _ ← params? members "outputs"
  let _ ← statesMutability members
  return function name

/-- Reads the constructor. -/
def constructorOfMembers? (members : List (String × Json)) : Option AbiItem := do
  let _ ← params? members "inputs"
  let _ ← statesMutability members
  return constructor

/-- Reads an item with the given tag. -/
def ofTagged? (tag : String) (fields : Json) : Option AbiItem :=
  match tag, fields with
  | "event", fields => (Event.ofJson? fields).map event
  | "error", fields => errorOfJson? fields
  | "function", .object members => functionOfMembers? members
  | "constructor", .object members => constructorOfMembers? members
  | "fallback", .object members => (statesMutability members).map fun _ => fallback
  | "receive", .object members => (statesMutability members).map fun _ => receive
  | _, _ => none

/-- Reads an item. -/
def ofJson? : Json → Option AbiItem
  | .object members => do
      let tag ← Field.required Json.text? (← Json.field? members "type")
      ofTagged? tag (.object (members.filter fun member => member.1 != "type"))
  | .list (tag :: fields) => do ofTagged? (← tag.text?) (.list fields)
  | _ => none

end AbiItem

/-- The interface of a contract. -/
structure ContractAbi where
  items : List AbiItem
deriving Inhabited

namespace ContractAbi

/-- The number of items. -/
def size (abi : ContractAbi) : Nat := abi.items.length

/-- The events, in their order. -/
def events (abi : ContractAbi) : List Event :=
  abi.items.filterMap fun
    | .event event => some event
    | _ => none

/-- Whether there is at most one item of each kind of which there cannot be more. -/
def hasSingles (items : List AbiItem) : Bool :=
  let count (isOne : AbiItem → Bool) := (items.filter isOne).length
  count (· matches .constructor) ≤ 1 && count (· matches .fallback) ≤ 1 &&
    count (· matches .receive) ≤ 1

/-- Reads an interface. -/
def ofJson? (json : Json) : Option ContractAbi := do
  if json.isSound nestingLimit then
    let items ← Json.list? AbiItem.ofJson? json
    if hasSingles items then some ⟨items⟩ else none
  else none

/-- Reads the text of an interface. -/
def parse? (text : String) : Option ContractAbi := do ofJson? (← Json.parse? text)

end ContractAbi

end LogRelay
