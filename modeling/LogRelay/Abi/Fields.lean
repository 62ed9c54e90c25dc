import LogRelay.Abi.Type
import LogRelay.Chain.Undecoded

/-!
# Decoded logs

The name of the event and the values of its parameters under their names, in the
order of the declaration.  A name may stand for several parameters; asking for it
gives the first.
-/

namespace LogRelay

/-- A decoded log. -/
structure LogFields where
  event : String
  fields : List (String × AbiValue)
deriving Inhabited

namespace LogFields

/-- The value of a parameter, if there is one of that name. -/
def value? (fields : LogFields) (name : String) : Option AbiValue := fields.fields.lookup name

/-- The value of a parameter as `select` takes it; `expected` says what that is. -/
def get {α : Type} (select : AbiValue → Option α) (expected : String) (fields : LogFields)
    (name : String) : Except DecodeError α :=
  match fields.value? name with
  | none => .error (.invalidField name "not present in the event")
  | some value =>
      match select value with
      | some result => .ok result
      | none => .error (.invalidField name expected)

/-- The number under a name, which must not have a signed type. -/
def uint : LogFields → String → Except DecodeError Nat :=
  get (fun | .uint value _ => some value | _ => none) "expected an unsigned integer"

/-- The address under a name. -/
def address : LogFields → String → Except DecodeError (Word 20) :=
  get (fun | .address value => some value | _ => none) "expected an address"

/-- The 32 bytes under a name. -/
def bytes32 : LogFields → String → Except DecodeError (Word 32) :=
  get (fun | .fixedBytes word 32 => some word | _ => none) "expected bytes32"

/-- The byte string under a name. -/
def bytes : LogFields → String → Except DecodeError Bytes :=
  get (fun | .bytes value => some value | _ => none) "expected dynamic bytes"

end LogFields

end LogRelay
