import LogRelay.Decimal.Digits

/-!
# The shortest decimal text of a binary floating-point number

Every number of 64 bits in binary floating point is written with the fewest
decimal digits that are read back as the same number; among texts of that length,
the one nearest to the number is taken.  Of two equally near ones a `Tie` decides.

A finite number is `mantissa * 2 ^ exponent`.  The reals that are read back as it
form an interval, whose ends belong to it exactly when the mantissa is even.
Multiplying with a common denominator turns every test into one on natural
numbers.  How the digits are laid out is decided by a `Layout`.
-/

namespace LogRelay.Decimal

/-- Which of two equally near neighbours on a grid is taken. -/
inductive Tie where
  /-- The one with an even last digit. -/
  | even
  /-- The greater one. -/
  | up
deriving DecidableEq

/-- Whether the lower one of two equally near neighbours is taken, where it is `below`. -/
def Tie.takesLower (tie : Tie) (below : Nat) : Bool :=
  match tie with
  | even => below % 2 == 0
  | up => false

/-- A positive number `numerator / denominator` and the interval around it whose ends are
`low / denominator` and `high / denominator`. -/
structure Interval where
  /-- The lower end. -/
  low : Nat
  /-- The number itself. -/
  numerator : Nat
  /-- The upper end. -/
  high : Nat
  /-- The common denominator. -/
  denominator : Nat
  /-- Whether the ends belong to the interval. -/
  closed : Bool

namespace Interval

/-- The interval around `mantissa * 2 ^ exponent`.  Just above a power of two the numbers
below are twice as dense, which `narrow` tells. -/
def ofDyadic (mantissa : Nat) (exponent : Int) (narrow : Bool) : Interval :=
  let factor := Nat.pow 2 exponent.toNat
  let below := if narrow then 1 else 2
  { low := (4 * mantissa - below) * factor
    numerator := 4 * mantissa * factor
    high := (4 * mantissa + 2) * factor
    denominator := 4 * Nat.pow 2 (-exponent).toNat
    closed := mantissa % 2 == 0 }

/-- Both sides of a comparison with `digits * 10 ^ exponent`, free of fractions. -/
def scale (interval : Interval) (digits : Nat) (exponent : Int) : Nat × Nat :=
  (digits * Nat.pow 10 exponent.toNat * interval.denominator, Nat.pow 10 (-exponent).toNat)

/-- Whether `digits * 10 ^ exponent` lies in the interval. -/
def contains (interval : Interval) (digits : Nat) (exponent : Int) : Bool :=
  let (value, unit) := interval.scale digits exponent
  if interval.closed then interval.low * unit ≤ value && value ≤ interval.high * unit
  else interval.low * unit < value && value < interval.high * unit

/-- How far `digits * 10 ^ exponent` is from the number, in a unit that depends on the
exponent alone. -/
def distance (interval : Interval) (digits : Nat) (exponent : Int) : Nat :=
  let (value, unit) := interval.scale digits exponent
  max value (interval.numerator * unit) - min value (interval.numerator * unit)

/-- The greatest `digits` with `digits * 10 ^ exponent` not above the number. -/
def floorDigits (interval : Interval) (exponent : Int) : Nat :=
  interval.numerator * Nat.pow 10 (-exponent).toNat /
    (interval.denominator * Nat.pow 10 exponent.toNat)

/-- The exponent of the leading digit: the greatest one whose power of ten is not above
the number.  The search starts from a bound that is never too low. -/
def leadingExponent (interval : Interval) : (fuel : Nat) → Int → Int
  | 0, exponent => exponent
  | fuel + 1, exponent =>
      if interval.floorDigits exponent = 0 then leadingExponent interval fuel (exponent - 1)
      else exponent

/-- The point of the interval on the grid of multiples of `10 ^ exponent` that is nearest to
the number, if there is one. -/
def onGrid? (interval : Interval) (tie : Tie) (exponent : Int) : Option Nat :=
  let below := interval.floorDigits exponent
  let above := below + 1
  match interval.contains below exponent, interval.contains above exponent with
  | true, true =>
      let toBelow := interval.distance below exponent
      let toAbove := interval.distance above exponent
      if toBelow < toAbove ∨ (toBelow = toAbove ∧ tie.takesLower below) then some below
      else some above
  | true, false => some below
  | false, true => some above
  | false, false => none

/-- The first grid with a point of the interval, from coarse to fine. -/
def firstOnGrid (interval : Interval) (tie : Tie) : (fuel : Nat) → Int → Nat × Int
  | 0, exponent => (interval.floorDigits exponent, exponent)
  | fuel + 1, exponent =>
      match interval.onGrid? tie exponent with
      | some digits => (digits, exponent)
      | none => firstOnGrid interval tie fuel (exponent - 1)

end Interval

/-- What a bit pattern of 64 bits stands for. -/
inductive Magnitude where
  | notANumber
  | infinite
  | zero
  /-- The number `mantissa * 2 ^ exponent`, with denser numbers below it if `narrow`. -/
  | finite (mantissa : Nat) (exponent : Int) (narrow : Bool)
deriving DecidableEq

/-- The sign bit and the magnitude of a number. -/
def classify (value : Float) : Bool × Magnitude :=
  let bits : Nat := value.toBits.toNat
  let fraction : Nat := bits % Nat.pow 2 52
  let biased : Nat := bits / Nat.pow 2 52 % 2048
  let negative := bits / Nat.pow 2 63 == 1
  let magnitude :=
    if biased = 2047 then (if fraction = 0 then .infinite else .notANumber)
    else if biased = 0 then (if fraction = 0 then .zero else .finite fraction (-1074) false)
    else .finite (Nat.pow 2 52 + fraction) ((biased : Int) - 1075) (fraction == 0 && biased != 1)
  (negative, magnitude)

/-- The shortest digits of a finite magnitude and the exponent of the last of them. -/
def shortest (tie : Tie) (mantissa : Nat) (exponent : Int) (narrow : Bool) : Nat × Int :=
  let interval := Interval.ofDyadic mantissa exponent narrow
  interval.firstOnGrid tie 20 (interval.leadingExponent 700 309)

/-- How digits are chosen and laid out as a text. -/
structure Layout where
  /-- Which of two equally near texts is taken. -/
  tie : Tie
  /-- The least exponent of the leading digit that is written without an exponent. -/
  leastPositional : Int
  /-- The greatest such exponent. -/
  greatestPositional : Int
  /-- Whether a whole number is written with `.0`. -/
  keepsPoint : Bool
  /-- Whether an exponent that is not negative has a plus sign. -/
  signsExponent : Bool

/-- `n` zeros. -/
def zeros (n : Nat) : List Char := List.replicate n '0'

/-- The digits with the point set so that the last digit has the given exponent. -/
def positional (layout : Layout) (digits : List Char) (exponent : Int) : List Char :=
  let tail := if layout.keepsPoint then ".0".toList else []
  if 0 ≤ exponent then digits ++ zeros exponent.toNat ++ tail
  else
    let places := exponent.natAbs
    if digits.length ≤ places then "0.".toList ++ zeros (places - digits.length) ++ digits
    else digits.take (digits.length - places) ++ '.' :: digits.drop (digits.length - places)

/-- The digits with a point after the first one and the exponent of that digit. -/
def scientific (layout : Layout) (digits : List Char) (leading : Int) : List Char :=
  let fraction := match digits with
    | [] => []
    | [only] => [only]
    | first :: rest => first :: '.' :: rest
  let sign := if 0 ≤ leading ∧ layout.signsExponent then "+" else ""
  fraction ++ 'e' :: (sign ++ toString leading).toList

/-- The text of a number in the given layout. -/
def Layout.text (layout : Layout) (value : Float) : String :=
  let (negative, magnitude) := classify value
  let sign := if negative then ['-'] else []
  match magnitude with
  | .notANumber => "NaN"
  | .infinite => String.ofList (sign ++ "inf".toList)
  | .zero => String.ofList (sign ++ (if layout.keepsPoint then "0.0" else "0").toList)
  | .finite mantissa exponent narrow =>
      let (digits, last) := shortest layout.tie mantissa exponent narrow
      let digits := Nat.toDigits 10 digits
      let stripped := (digits.reverse.dropWhile (· == '0')).reverse
      let last := last + (digits.length - stripped.length : Nat)
      let leading := last + (stripped.length : Int) - 1
      let body :=
        if layout.leastPositional ≤ leading ∧ leading ≤ layout.greatestPositional then
          positional layout stripped last
        else scientific layout stripped leading
      String.ofList (sign ++ body)

/-- Numbers in reports: exponents below -4 and from 16 on are written out, and whole numbers
keep their point. -/
def Layout.report : Layout := ⟨.up, -4, 15, true, false⟩

/-- Numbers used as text: never an exponent, never a superfluous point. -/
def Layout.plain : Layout := ⟨.up, -400, 400, false, false⟩

/-- Numbers in JSON: exponents below -5 and from 16 on are written out, with their sign, and ties
go to the even digit. -/
def Layout.json : Layout := ⟨.even, -5, 15, true, true⟩

end LogRelay.Decimal
