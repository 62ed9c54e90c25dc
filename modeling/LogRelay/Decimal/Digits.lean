/-!
# Decimal digits

Reading runs of ASCII digits and whole numbers from the front of a list of
characters.
-/

namespace LogRelay.Decimal

/-- The value of an ASCII digit. -/
def digitValue (c : Char) : Nat := c.toNat - 48

/-- The number that a run of digits writes down. -/
def ofDigits (digits : List Char) : Nat :=
  digits.foldl (fun value c => value * 10 + digitValue c) 0

/-- The longest run of digits in front, and what follows it. -/
def spanDigits (text : List Char) : List Char × List Char := text.span Char.isDigit

/-- A whole number: at least one digit and nothing else. -/
def nat? (text : List Char) : Option Nat :=
  if !text.isEmpty && text.all Char.isDigit then some (ofDigits text) else none

/-- A whole number, with an optional plus sign. -/
def unsigned? : List Char → Option Nat
  | '+' :: rest => nat? rest
  | text => nat? text

/-- A number with an optional sign. -/
def signed? : List Char → Option Int
  | '-' :: rest => (nat? rest).map fun value => -(value : Int)
  | '+' :: rest => (nat? rest).map fun value => (value : Int)
  | text => (nat? text).map fun value => (value : Int)

/-- The least value of a signed number of 64 bits. -/
def leastInt64 : Int := -9223372036854775808

/-- The greatest value of a signed number of 64 bits. -/
def greatestInt64 : Int := 9223372036854775807

/-- The greatest value of an unsigned number of 64 bits. -/
def greatestUInt64 : Nat := 18446744073709551615

/-- A number with an optional sign that fits in 64 bits. -/
def int64? (text : List Char) : Option Int := do
  let value ← signed? text
  if leastInt64 ≤ value ∧ value ≤ greatestInt64 then some value else none

/-- A whole number that fits in 64 bits, with an optional plus sign. -/
def uint64? (text : List Char) : Option Nat := do
  let value ← unsigned? text
  if value ≤ greatestUInt64 then some value else none

/-- A whole number in at least `width` digits, with zeros in front. -/
def padded (width value : Nat) : String :=
  let digits := Nat.toDigits 10 value
  String.ofList (List.replicate (width - digits.length) '0' ++ digits)

end LogRelay.Decimal
