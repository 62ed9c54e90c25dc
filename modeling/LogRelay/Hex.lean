import LogRelay.Bytes

/-!
# Hexadecimal text

A byte is written as two lower-case digits.  Reading takes digits of either case
and an optional `0x` or `0X` in front.
-/

namespace LogRelay.Hex

/-- The lower-case digit of a value below sixteen. -/
def digit (value : Nat) : Char :=
  if value < 10 then Char.ofNat (48 + value) else Char.ofNat (87 + value)

/-- The value of a digit of either case. -/
def digitValue? (c : Char) : Option Nat :=
  if '0' ≤ c ∧ c ≤ '9' then some (c.toNat - 48)
  else if 'a' ≤ c ∧ c ≤ 'f' then some (c.toNat - 87)
  else if 'A' ≤ c ∧ c ≤ 'F' then some (c.toNat - 55)
  else none

/-- The two digits of each byte, in order. -/
def encodeChars (bytes : Bytes) : List Char :=
  bytes.flatMap fun byte => [digit (byte.toNat / 16), digit (byte.toNat % 16)]

/-- Reads pairs of digits; refuses a foreign character and a digit without a partner. -/
def decodeChars? : List Char → Option Bytes
  | [] => some []
  | [_] => none
  | high :: low :: rest => do
      let high ← digitValue? high
      let low ← digitValue? low
      let rest ← decodeChars? rest
      return UInt8.ofNat (high * 16 + low) :: rest

/-- The text without a leading `0x` or `0X`. -/
def stripMark : List Char → List Char
  | '0' :: 'x' :: rest | '0' :: 'X' :: rest => rest
  | text => text

/-- The digits of the bytes, without a mark in front. -/
def digits (bytes : Bytes) : String := String.ofList (encodeChars bytes)

/-- The usual form: `0x` and the digits. -/
def encode (bytes : Bytes) : String := "0x" ++ digits bytes

/-- Reads digits with or without a mark in front. -/
def decode? (text : String) : Option Bytes := decodeChars? (stripMark text.toList)

end LogRelay.Hex

namespace LogRelay.Word

/-- The word in hexadecimal, with `0x` in front. -/
def text {size : Nat} (word : Word size) : String := Hex.encode word.bytes

end LogRelay.Word
