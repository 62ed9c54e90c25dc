import LogRelay.Bytes

/-!
# Numbers of variable length

A number up to 250 is one byte.  The bytes 251, 252 and 253 announce a number of
two, four and eight bytes, least significant byte first; larger announcements are
refused.  Reading also accepts a number in more bytes than it needs.
-/

namespace LogRelay.Varint

/-- The `width` least significant bytes, the least significant one first. -/
def littleEndian (width value : Nat) : Bytes := (Bytes.ofNat width value).reverse

/-- The number whose bytes, least significant first, are given. -/
def ofLittleEndian (bytes : Bytes) : Nat := Bytes.toNat bytes.reverse

/-- The shortest form of a number of 64 bits. -/
def encode (value : Nat) : Bytes :=
  if value ≤ 250 then [UInt8.ofNat value]
  else if value < 65536 then 251 :: littleEndian 2 value
  else if value < 4294967296 then 252 :: littleEndian 4 value
  else 253 :: littleEndian 8 value

/-- How many bytes follow an announcing byte. -/
def width? (byte : UInt8) : Option Nat :=
  if byte = 251 then some 2 else if byte = 252 then some 4 else if byte = 253 then some 8 else none

/-- The number in front and the bytes after it. -/
def decode? : Bytes → Option (Nat × Bytes)
  | [] => none
  | byte :: rest =>
      if byte ≤ 250 then some (byte.toNat, rest)
      else do
        let width ← width? byte
        if rest.length < width then none
        else some (ofLittleEndian (rest.take width), rest.drop width)

end LogRelay.Varint
