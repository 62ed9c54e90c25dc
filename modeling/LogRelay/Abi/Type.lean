import LogRelay.Bytes

/-!
# Types and values of the contract interface

Parameters of contract events have types; a log carries their values in words of 32
bytes.  A type is *dynamic* if the length of its encoding depends on the value, and
it is of *no size* if it has no content at all.
-/

namespace LogRelay

/-- The type of a parameter. -/
inductive AbiType where
  /-- Truth values. -/
  | bool
  | address
  /-- References to functions: an address and a selector. -/
  | function
  /-- Whole numbers below `2 ^ bits`. -/
  | uint (bits : Nat)
  /-- Whole numbers of `bits` bits with their sign. -/
  | int (bits : Nat)
  /-- Byte strings of `size` bytes. -/
  | fixedBytes (size : Nat)
  | bytes
  | string
  | array (element : AbiType)
  | fixedArray (element : AbiType) (length : Nat)
  /-- Lists whose items have types of their own. -/
  | tuple (elements : List AbiType)
deriving Inhabited

namespace AbiType

mutual

/-- Whether the length of the encoding depends on the value. -/
def isDynamic : AbiType → Bool
  | bytes | string | array _ => true
  | fixedArray element _ => isDynamic element
  | tuple elements => someDynamic elements
  | _ => false

/-- Whether one of the types is dynamic. -/
def someDynamic : List AbiType → Bool
  | [] => false
  | type :: rest => isDynamic type || someDynamic rest

end

mutual

/-- Whether values of the type have no content. -/
def isEmpty : AbiType → Bool
  | array element => isEmpty element
  | fixedArray element length => length == 0 || isEmpty element
  | tuple elements => areEmpty elements
  | _ => false

/-- Whether none of the types has content. -/
def areEmpty : List AbiType → Bool
  | [] => true
  | type :: rest => isEmpty type && areEmpty rest

end

mutual

/-- A number of words that the encoding has at least. -/
def leastWords : AbiType → Nat
  | fixedArray element length => length * leastWords element
  | tuple elements => sumLeastWords elements
  | _ => 1

/-- The sum of the least numbers of words. -/
def sumLeastWords : List AbiType → Nat
  | [] => 0
  | type :: rest => leastWords type + sumLeastWords rest

end

end AbiType

/-- The value of a parameter.  Numbers and fixed byte strings fill their word, whatever their
type allows. -/
inductive AbiValue where
  | bool (value : Bool)
  | address (value : Word 20)
  | function (value : Word 24)
  /-- A number of a type of `bits` bits. -/
  | uint (value bits : Nat)
  /-- A number with its sign, of a type of `bits` bits. -/
  | int (value : Int) (bits : Nat)
  /-- The word of a byte string of `size` bytes. -/
  | fixedBytes (word : Word 32) (size : Nat)
  | bytes (value : Bytes)
  | string (value : String)
  /-- A list of a type of any length. -/
  | array (items : List AbiValue)
  /-- A list of a type of fixed length. -/
  | fixedArray (items : List AbiValue)
  /-- A list whose items have types of their own. -/
  | tuple (items : List AbiValue)
deriving Inhabited

end LogRelay
