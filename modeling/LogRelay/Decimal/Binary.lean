import LogRelay.Decimal.Digits

/-!
# Decimal text to binary floating point

The decimal notation for numbers of 64 bits in binary floating point: an optional
sign, then `inf`, `infinity` or `nan` in any case, or digits with an optional
point and an optional exponent.  The result is the nearest representable number.
-/

namespace LogRelay.Decimal

/-- Positive infinity. -/
def infinity : Float := Float.ofBits 0x7FF0000000000000

/-- The value that is no number. -/
def notANumber : Float := Float.ofBits 0x7FF8000000000000

/-- The number nearest to `mantissa * 10 ^ exponent`.  Exponents so far out that the
result is zero or infinite whatever the digits are decided at once. -/
def nearest (mantissa : Nat) (exponent : Int) : Float :=
  let magnitude := exponent + (Nat.toDigits 10 mantissa).length
  if mantissa = 0 ∨ magnitude < -400 then 0
  else if magnitude > 400 then infinity
  else if exponent < 0 then Float.ofScientific mantissa true exponent.natAbs
  else Float.ofScientific mantissa false exponent.natAbs

/-- An exponent part: nothing, or `e` with an optional sign and digits to the end. -/
def exponent? : List Char → Option Int
  | [] => some 0
  | c :: rest => if c = 'e' ∨ c = 'E' then signed? rest else none

/-- A magnitude in digits; there must be one before or after the point. -/
def magnitude? (text : List Char) : Option Float := do
  let (whole, rest) := spanDigits text
  let (fraction, rest) := match rest with
    | '.' :: rest => spanDigits rest
    | rest => ([], rest)
  if whole.isEmpty ∧ fraction.isEmpty then none
  else
    let exponent ← exponent? rest
    return nearest (ofDigits (whole ++ fraction)) (exponent - fraction.length)

/-- A number without its sign. -/
def unsignedFloat? (text : List Char) : Option Float :=
  let lower := text.map Char.toLower
  if lower = "inf".toList ∨ lower = "infinity".toList then some infinity
  else if lower = "nan".toList then some notANumber
  else magnitude? text

/-- Reads a number in binary floating point. -/
def float? (text : String) : Option Float :=
  match text.toList with
  | '-' :: rest => (unsignedFloat? rest).map (fun value => -value)
  | '+' :: rest => unsignedFloat? rest
  | rest => unsignedFloat? rest

/-- The whole number nearest to `value`, a half going away from zero, kept between zero
and the greatest number of 64 bits.  What is no number counts as zero. -/
def saturate (value : Float) : Nat := value.toUInt64.toNat

/-- The number without its fraction, a half being rounded away from zero. -/
def roundHalfAway (value : Float) : Float := Float.round value

end LogRelay.Decimal
