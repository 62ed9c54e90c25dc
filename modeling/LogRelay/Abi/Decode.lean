import LogRelay.Abi.Type
import LogRelay.Text.Utf8

/-!
# Decoding values

Values are read from a *frame*: distances count from the start of the frame, and
every list and every value in a tail opens a frame of its own, up to sixteen inside
each other.  Reading is generous: unused bits of a word, unused words and what
follows a byte string up to the next word are not looked at, and of distances and
lengths only the last eight bytes count.

Before it is read, a value is *blank*: it has no content yet, but all the items of its
lists of fixed length, and for each other list one item, which is copied once the length
is known.  So what memory is needed depends on the types as well as on the data.

Sizes are counted with 64 bits.  A size that cannot be counted so is not an error of
the data like others: it breaks the decoding down.  So does the end of the memory, unless
it is for a single list that it does not suffice.
-/

namespace LogRelay

/-- Why data could not be decoded. -/
inductive DataError where
  /-- The data ends too early. -/
  | overrun
  /-- The frames are nested too deeply. -/
  | tooDeep
  /-- No list can have so many items. -/
  | unlistable
  /-- There is no memory for a list of so many items. -/
  | noMemory
deriving DecidableEq, Inhabited

/-- What ends a decoding before there is a value. -/
inductive DecodingEnd where
  | fault (error : DataError)
  /-- A size has more than 64 bits. -/
  | uncountable
  /-- The memory is used up. -/
  | exhausted
deriving DecidableEq, Inhabited

/-- The number of sizes that can be counted. -/
def sizeCount : Nat := Nat.pow 2 64

/-- The bytes that an item takes up while its list is decoded. -/
def itemSize : Nat := 40

/-- The greatest number of items that a list can have. -/
def greatestItemCount : Nat := (Nat.pow 2 63 - 1) / itemSize

/-- The greatest number of items for which there is memory. -/
def storableItemCount : Nat := Nat.pow 2 34 / itemSize

namespace Frame

/-- How many frames may be open inside the first one. -/
def limit : Nat := 16

end Frame

/-- The message of an error. -/
def DataError.message : DataError → String
  | overrun => "ABI decoding failed: buffer overrun while deserializing"
  | tooDeep =>
      "ABI decoding failed: recursion limit of " ++ toString Frame.limit ++
        " exceeded during decoding"
  | unlistable =>
      "memory allocation failed because the computed capacity exceeded the collection's maximum"
  | noMemory => "memory allocation failed because the memory allocator returned an error"

/-- Where reading stands. -/
structure Frame where
  /-- The bytes from the start of the frame on. -/
  content : Bytes
  /-- The bytes that have not been read yet. -/
  rest : Bytes
  /-- The number of frames around this one. -/
  depth : Nat := 0
  /-- The number of items for which there is memory left. -/
  spare : Nat := storableItemCount

/-- A step of reading: it moves on in the frame and has a result or fails. -/
abbrev Reading (α : Type) := Frame → Except DecodingEnd (α × Frame)

namespace Frame

/-- A frame inside this one. -/
def child (frame : Frame) (content : Bytes) : Except DecodingEnd Frame :=
  if limit ≤ frame.depth then .error (.fault .tooDeep)
  else .ok ⟨content, content, frame.depth + 1, frame.spare⟩

/-- The frame inside this one that starts at a distance. -/
def childAt (frame : Frame) (distance : Nat) : Except DecodingEnd Frame := do
  let _ ← frame.child []
  if distance ≤ frame.content.length then frame.child (frame.content.drop distance)
  else .error (.fault .overrun)

/-- Reads a word. -/
def word : Reading (Word 32) := fun frame =>
  match Word.ofBytes? 32 (frame.rest.take 32) with
  | some word => .ok (word, { frame with rest := frame.rest.drop 32 })
  | none => .error (.fault .overrun)

/-- Reads a distance or a length. -/
def distance : Reading Nat := fun frame => do
  let (word, frame) ← word frame
  return (Bytes.toNat (word.bytes.drop 24), frame)

/-- Reads `length` bytes, whose end has to be countable from the start of the frame. -/
def slice (length : Nat) : Reading Bytes := fun frame =>
  if sizeCount ≤ frame.content.length - frame.rest.length + length then .error .uncountable
  else if length ≤ frame.rest.length then
    .ok (frame.rest.take length, { frame with rest := frame.rest.drop length })
  else .error (.fault .overrun)

/-- Reads in a frame that starts here, and goes on behind it. -/
def here {α : Type} (read : Reading α) : Reading α := fun frame => do
  let (value, inner) ← read (← frame.child frame.rest)
  return (value, { frame with rest := inner.rest, spare := inner.spare })

/-- Reads a distance and then in the frame that starts there. -/
def elsewhere {α : Type} (read : Reading α) : Reading α := fun frame => do
  let (distance, frame) ← distance frame
  let (value, inner) ← read (← frame.childAt distance)
  return (value, { frame with spare := inner.spare })

/-- Reads a byte string, whose length stands before it. -/
def packed : Reading Bytes := elsewhere fun frame => do
  let (length, frame) ← distance frame
  slice length frame

/-- Reads `count` times. -/
def times {α : Type} (read : Reading α) : (count : Nat) → Reading (List α)
  | 0 => fun frame => .ok ([], frame)
  | count + 1 => fun frame => do
      let (value, frame) ← read frame
      let (values, frame) ← times read count frame
      return (value :: values, frame)

/-- The fault of a list with so many items, if it cannot be laid out; a single item needs no
list. -/
def layoutFault? (count : Nat) : Option DataError :=
  if count ≤ 1 then none
  else if greatestItemCount < count then some .unlistable
  else if storableItemCount < count then some .noMemory
  else none

/-- Takes memory for some items. -/
def hold (items : Nat) (frame : Frame) : Except DecodingEnd Frame :=
  if items ≤ frame.spare then .ok { frame with spare := frame.spare - items }
  else .error .exhausted

/-- Reads a list whose length stands before it.  If the rest of the data or the memory cannot
hold it, nothing of it is read.  One blank item is there already. -/
def counted {α : Type} (leastWords blankItems : Nat) (read : Reading α) : Reading (List α) :=
  elsewhere fun frame => do
    let (count, frame) ← distance frame
    if count = 0 then return ([], frame)
    else here (fun frame =>
      if sizeCount ≤ leastWords * count then .error .uncountable
      else if frame.rest.length / 32 < leastWords * count then .error (.fault .overrun)
      else
        match layoutFault? count with
        | some error => .error (.fault error)
        | none => do times read count (← frame.hold ((count - 1) * (1 + blankItems)))) frame

/-- Reads a list of known length, in the tail if its type is dynamic. -/
def grouped {α : Type} (moved : Bool) (read : Reading α) : Reading α :=
  if moved then elsewhere read else here read

end Frame

/-! ## Words -/

/-- The number that a word writes down with its sign. -/
def intOfWord (word : Word 32) : Int :=
  let value := word.toNat
  if value < Nat.pow 2 255 then value else (value : Int) - (Nat.pow 2 256 : Nat)

namespace AbiType

/-- The value that a word holds, for the types whose values fit in one. -/
def ofWord? (word : Word 32) : AbiType → Option AbiValue
  | bool => some (.bool (word ≠ Word.zero 32))
  | address => some (.address (Word.padLeft 20 word.bytes))
  | function => some (.function (Word.padLeft 24 (word.bytes.take 24)))
  | uint bits => some (.uint word.toNat bits)
  | int bits => some (.int (intOfWord word) bits)
  | fixedBytes size => some (.fixedBytes word size)
  | _ => none

/-- The value of an indexed parameter.  Where the type does not fit in a word, the topic is a
hash. -/
def ofTopic (type : AbiType) (topic : Word 32) : AbiValue :=
  (ofWord? topic type).getD (.fixedBytes topic 32)

/-- Reads a word and takes it as a value of the type. -/
def readWord (type : AbiType) : Reading AbiValue := fun frame => do
  let (word, frame) ← Frame.word frame
  return (type.ofTopic word, frame)

/-! ## Blank values -/

mutual

/-- The number of items in a blank value of the type. -/
def blankItems : AbiType → Nat
  | array element => 1 + blankItems element
  | fixedArray element length => length * (1 + blankItems element)
  | tuple elements => sumBlankItems elements
  | _ => 0

/-- The number of items in a list of blank values. -/
def sumBlankItems : List AbiType → Nat
  | [] => 0
  | type :: rest => 1 + blankItems type + sumBlankItems rest

end

mutual

/-- The fault of the first list in a blank value that cannot be laid out. -/
def blankFault? : AbiType → Option DataError
  | array element => blankFault? element
  | fixedArray element length => (blankFault? element).or (Frame.layoutFault? length)
  | tuple elements => firstBlankFault? elements
  | _ => none

/-- The fault of the first list in several blank values that cannot be laid out. -/
def firstBlankFault? : List AbiType → Option DataError
  | [] => none
  | type :: rest => (blankFault? type).or (firstBlankFault? rest)

end

/-! ## Reading values -/

mutual

/-- Reads a value. -/
def read : AbiType → Reading AbiValue
  | bytes => fun frame => do
      let (value, frame) ← Frame.packed frame
      return (.bytes value, frame)
  | string => fun frame => do
      let (value, frame) ← Frame.packed frame
      return (.string (Text.decodeLossy value), frame)
  | array element => fun frame => do
      let (items, frame) ←
        Frame.counted (leastWords element) (blankItems element) (read element) frame
      return (.array items, frame)
  | fixedArray element length => fun frame => do
      let (items, frame) ←
        Frame.grouped (isDynamic element) (Frame.times (read element) length) frame
      return (.fixedArray items, frame)
  | tuple elements => fun frame => do
      let (items, frame) ← Frame.grouped (someDynamic elements) (readAll elements) frame
      return (.tuple items, frame)
  | bool => readWord .bool
  | address => readWord .address
  | function => readWord .function
  | uint bits => readWord (.uint bits)
  | int bits => readWord (.int bits)
  | fixedBytes size => readWord (.fixedBytes size)

/-- Reads one value after the other. -/
def readAll : List AbiType → Reading (List AbiValue)
  | [] => fun frame => .ok ([], frame)
  | type :: rest => fun frame => do
      let (value, frame) ← read type frame
      let (values, frame) ← readAll rest frame
      return (value :: values, frame)

end

/-- The values that stand in the data of an event.  Types without content make no values.
There have to be as many words as the types need at least, and memory for blank values. -/
def decodeAll (types : List AbiType) (data : Bytes) : Except DecodingEnd (List AbiValue) :=
  if areEmpty types then .ok []
  else if sizeCount ≤ sumLeastWords types then .error .uncountable
  else if data.length / 32 < sumLeastWords types then .error (.fault .overrun)
  else
    match firstBlankFault? types with
    | some error => .error (.fault error)
    | none => do
        let frame ← Frame.hold (sumBlankItems types) { content := data, rest := data }
        let (values, _) ← readAll types frame
        return values

end AbiType

end LogRelay
