import LogRelay.Decimal.Binary

/-!
# Numbers of JSON

A number without fraction and exponent that fits in 64 bits is a whole number.
Every other number is in binary floating point: as many leading digits as fit in 64
bits are taken and then scaled by powers of ten, and a number too large for that has
no value.
-/

namespace LogRelay.Json

/-- A number as it is written: a sign, digits and the power of ten that scales them. -/
structure Number where
  /-- Whether there is a minus sign. -/
  negative : Bool
  /-- The leading digits, as far as they fit in 64 bits. -/
  significand : Nat
  /-- The exponent of the power of ten. -/
  exponent : Int
  /-- Whether all digits are in the significand and no fraction or exponent was written. -/
  whole : Bool
deriving DecidableEq, Inhabited

namespace Number

/-- The whole number `value`. -/
def ofNat (value : Nat) : Number := ⟨false, value, 0, true⟩

/-- The whole number `value`, with its sign. -/
def ofInt (value : Int) : Number := ⟨value < 0, value.natAbs, 0, true⟩

/-- The greatest power of ten that scales in one step. -/
def greatestStep : Nat := 308

/-- `value * 10 ^ exponent`, in steps of at most `greatestStep`; `none` if it is infinite. -/
def scale : (fuel : Nat) → Float → Int → Option Float
  | 0, value, _ => some value
  | fuel + 1, value, exponent =>
      if exponent.natAbs ≤ greatestStep then
        let power := Float.ofScientific 1 false exponent.natAbs
        if 0 ≤ exponent then
          let scaled := value * power
          if scaled.isInf then none else some scaled
        else some (value / power)
      else if value == 0 then some value
      else if 0 ≤ exponent then none
      else scale fuel (value / Float.ofScientific 1 false greatestStep) (exponent + greatestStep)

/-- The number in binary floating point, unless it is too large. -/
def toFloat? (number : Number) : Option Float := do
  let value ← scale 8 (Float.ofNat number.significand) number.exponent
  return if number.negative then -value else value

/-- The number, if it is whole and not negative. -/
def toNat? (number : Number) : Option Nat :=
  if number.whole && !number.negative then some number.significand else none

/-- The number, if it is whole and fits in 64 bits with its sign.  A negative zero does not
count as whole. -/
def toInt? (number : Number) : Option Int :=
  if !number.whole then none
  else if number.negative then
    let value := -(number.significand : Int)
    if value < 0 ∧ Decimal.leastInt64 ≤ value then some value else none
  else some number.significand

/-- Adds one digit to the significand, if it still fits. -/
-- irreducible, because evaluation would count down from the bound
@[irreducible] def push? (significand : Nat) (digit : Char) : Option Nat :=
  let value := significand * 10 + Decimal.digitValue digit
  if value ≤ Decimal.greatestUInt64 then some value else none

/-- The significand of the whole part and the number of digits that did not fit. -/
def wholePart (significand : Nat) : List Char → Nat × Nat
  | [] => (significand, 0)
  | digit :: rest =>
      match push? significand digit with
      | some significand => wholePart significand rest
      | none => (significand, rest.length + 1)

/-- Goes on with the digits of the fraction until one does not fit. -/
def fractionPart (significand : Nat) (exponent : Int) : List Char → Nat × Int
  | [] => (significand, exponent)
  | digit :: rest =>
      match push? significand digit with
      | some significand => fractionPart significand (exponent - 1) rest
      | none => (significand, exponent)

/-- The digits of an exponent in front: its value, with the sign, and the rest. -/
def exponentDigits? (sign : Int) (text : List Char) : Option (Int × List Char) :=
  let (digits, rest) := Decimal.spanDigits text
  if digits.isEmpty then none else some (sign * Decimal.ofDigits digits, rest)

/-- An exponent in front, after its letter. -/
def exponent? : List Char → Option (Int × List Char)
  | '+' :: rest => exponentDigits? 1 rest
  | '-' :: rest => exponentDigits? (-1) rest
  | rest => exponentDigits? 1 rest

/-- An exponent part in front, if there is one: its value and the rest.  A letter `e`
without digits is refused. -/
def exponentPart? (text : List Char) : Option (Option Int × List Char) :=
  match text with
  | c :: rest =>
      if c = 'e' ∨ c = 'E' then
        (exponent? rest).map fun (exponent, rest) => (some exponent, rest)
      else some (none, text)
  | [] => some (none, [])

/-- A fraction in front, if there is one: its digits and the rest.  A point without digits
is refused. -/
def fraction? (text : List Char) : Option (Option (List Char) × List Char) :=
  match text with
  | '.' :: rest =>
      let (digits, rest) := Decimal.spanDigits rest
      if digits.isEmpty then none else some (some digits, rest)
  | text => some (none, text)

/-- The number whose parts are given. -/
def ofParts (negative : Bool) (whole : List Char) (fraction : Option (List Char))
    (exponent : Option Int) : Number :=
  let (significand, dropped) := wholePart 0 whole
  let (significand, scale) := fractionPart significand dropped (fraction.getD [])
  { negative
    significand
    exponent := scale + exponent.getD 0
    whole := dropped == 0 && fraction.isNone && exponent.isNone }

/-- A number without its sign in front of the text.  A leading zero stands alone. -/
def unsigned? (negative : Bool) (text : List Char) : Option (Number × List Char) := do
  let (whole, rest) := Decimal.spanDigits text
  if whole.isEmpty || (1 < whole.length && whole.head? == some '0') then none
  else
    let (fraction, rest) ← fraction? rest
    let (exponent, rest) ← exponentPart? rest
    return (ofParts negative whole fraction exponent, rest)

/-- A number in front of the text. -/
def read? : List Char → Option (Number × List Char)
  | '-' :: rest => unsigned? true rest
  | text => unsigned? false text

end Number

end LogRelay.Json
