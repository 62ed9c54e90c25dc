import LogRelay.Abi.Type
import LogRelay.Text.Utf8

/-!
# Encoding values

The standard encoding.  A list of values has a *head* and a *tail*: a value of a
static type stands in the head, a value of a dynamic type stands in the tail and the
head holds the distance to it, counted from the start of the head.
-/

namespace LogRelay.AbiValue

/-- The number as a word, modulo `2 ^ 256`. -/
def wordOfInt (value : Int) : Word 32 := Word.ofNat 32 (value % (Nat.pow 2 256 : Nat)).toNat

/-- Zero bytes up to the next whole word. -/
def padding (length : Nat) : Bytes := List.replicate ((32 - length % 32) % 32) 0

/-- The byte string after its length, filled up to whole words. -/
def packed (bytes : Bytes) : Bytes :=
  (Word.ofNat 32 bytes.length).bytes ++ (bytes ++ padding bytes.length)

/-- The word of a value that fits in one. -/
def word? : AbiValue → Option (Word 32)
  | bool value => some (Word.ofNat 32 value.toNat)
  | address value => some (Word.padLeft 32 value.bytes)
  | function value => some ⟨value.bytes ++ List.replicate 8 0, by simp [value.length_bytes]⟩
  | uint value _ => some (Word.ofNat 32 value)
  | int value _ => some (wordOfInt value)
  | fixedBytes word _ => some word
  | _ => none

/-- One item of a list of values: its encoding, and whether it goes to the tail. -/
structure Part where
  content : Bytes
  moved : Bool

/-- The bytes that a part takes up in the head. -/
def Part.headSize (part : Part) : Nat := if part.moved then 32 else part.content.length

/-- The bytes that the parts take up in the head. -/
def headSize (parts : List Part) : Nat := parts.foldr (fun part size => part.headSize + size) 0

/-- The head, where the next part of the tail starts at `position`. -/
def heads (position : Nat) : List Part → Bytes
  | [] => []
  | part :: rest =>
      if part.moved then
        (Word.ofNat 32 position).bytes ++ heads (position + part.content.length) rest
      else part.content ++ heads position rest

/-- The tail. -/
def tails (parts : List Part) : Bytes := (parts.filter (·.moved)).flatMap (·.content)

/-- Head and tail. -/
def layOut (parts : List Part) : Bytes := heads (headSize parts) parts ++ tails parts

mutual

/-- Whether the value has a dynamic type.  A list of fixed length has items to tell. -/
def isDynamic : AbiValue → Bool
  | bytes _ | string _ | array _ => true
  | fixedArray items | tuple items => someDynamic items
  | _ => false

/-- Whether one of the values has a dynamic type. -/
def someDynamic : List AbiValue → Bool
  | [] => false
  | value :: rest => isDynamic value || someDynamic rest

end

mutual

/-- The encoding of a value. -/
def encode : AbiValue → Bytes
  | bytes value => packed value
  | string value => packed (Text.encode value)
  | array items => (Word.ofNat 32 items.length).bytes ++ layOut (parts items)
  | fixedArray items => layOut (parts items)
  | tuple items => layOut (parts items)
  | value => ((word? value).map Word.bytes).getD []

/-- The values as items of a list. -/
def parts : List AbiValue → List Part
  | [] => []
  | value :: rest => ⟨encode value, isDynamic value⟩ :: parts rest

end

/-- The encoding of the values of an event that stand in its data. -/
def encodeAll (values : List AbiValue) : Bytes := layOut (parts values)

end LogRelay.AbiValue
