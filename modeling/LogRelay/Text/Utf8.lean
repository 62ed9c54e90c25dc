import LogRelay.Bytes

/-!
# Text in bytes

Reading text from bytes that need not be well formed.  Each maximal piece that
begins like the encoding of a character and does not go on like one is replaced
by U+FFFD, as is every byte that begins no character.
-/

namespace LogRelay.Text

/-- What stands for bytes that encode no character. -/
def replacement : Char := '\uFFFD'

/-- Whether the byte continues a character. -/
def isContinuation (byte : UInt8) : Bool := 0x80 ≤ byte && byte ≤ 0xBF

/-- The length of the character that a byte begins, and the range of the byte after it. -/
def leadByte? (byte : UInt8) : Option (Nat × UInt8 × UInt8) :=
  if 0xC2 ≤ byte ∧ byte ≤ 0xDF then some (2, 0x80, 0xBF)
  else if byte = 0xE0 then some (3, 0xA0, 0xBF)
  else if byte = 0xED then some (3, 0x80, 0x9F)
  else if 0xE1 ≤ byte ∧ byte ≤ 0xEF then some (3, 0x80, 0xBF)
  else if byte = 0xF0 then some (4, 0x90, 0xBF)
  else if 0xF1 ≤ byte ∧ byte ≤ 0xF3 then some (4, 0x80, 0xBF)
  else if byte = 0xF4 then some (4, 0x80, 0x8F)
  else none

/-- The bytes after a lead byte that go on as its character does, at most `missing` of them;
the first has a range of its own. -/
def continuations (missing : Nat) (low high : UInt8) (rest : Bytes) : Bytes :=
  match missing, rest with
  | 0, _ => []
  | _, [] => []
  | missing + 1, byte :: rest =>
      if low ≤ byte && byte ≤ high then
        byte :: (rest.takeWhile isContinuation).take missing
      else []

/-- The character with the given bytes, lead byte first. -/
def assemble (lead : UInt8) (tail : Bytes) : Char :=
  let head := match tail.length with
    | 1 => lead.toNat % 32
    | 2 => lead.toNat % 16
    | _ => lead.toNat % 8
  Char.ofNat (tail.foldl (fun value byte => value * 64 + byte.toNat % 64) head)

/-- One character and the number of bytes that it takes up, with `none` for a piece that
encodes no character. -/
def nextChar (byte : UInt8) (rest : Bytes) : Option Char × Nat :=
  if byte < 0x80 then (some (Char.ofNat byte.toNat), 1)
  else match leadByte? byte with
    | none => (none, 1)
    | some (length, low, high) =>
        let tail := continuations (length - 1) low high rest
        if tail.length + 1 = length then (some (assemble byte tail), length)
        else (none, tail.length + 1)

/-- The characters of the bytes, with `none` for each piece that encodes no character. -/
def decodeChars : (fuel : Nat) → Bytes → List (Option Char)
  | 0, _ => []
  | _, [] => []
  | fuel + 1, byte :: rest =>
      let (c, length) := nextChar byte rest
      c :: decodeChars fuel (rest.drop (length - 1))

/-- The text of the bytes, with U+FFFD for what encodes no character. -/
def decodeLossy (bytes : Bytes) : String :=
  String.ofList ((decodeChars bytes.length bytes).map fun c => c.getD replacement)

/-- The text of the bytes, if all of them encode characters. -/
def decode? (bytes : Bytes) : Option String :=
  ((decodeChars bytes.length bytes).mapM id).map String.ofList

/-- The bytes of a text. -/
def encode (text : String) : Bytes := text.toUTF8.toList

end LogRelay.Text
