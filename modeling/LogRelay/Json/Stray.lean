import LogRelay.Json.Number
import LogRelay.Hex

/-!
# Items that are no bytes

After the bytes of a list that has to hold a fixed number of them, one more item is
passed over if it is no byte.  It need not even be well formed: looking at it goes on
until it cannot be a value any more, and what is left must close the list.  The
character that shows it is taken as well, except after a number, where a character that
does not belong to it is left.

What is taken is counted in bytes of text, so that a character of several bytes can be
cut; nothing can follow then.
-/

namespace LogRelay.Json

/-- The text after the single byte of its first character. -/
def afterByte? : List Char → Option (List Char)
  | c :: rest => if c.toNat < 0x80 then some rest else none
  | [] => none

/-- The text after its first `count` bytes. -/
def afterBytes? : (count : Nat) → List Char → Option (List Char)
  | 0, text => some text
  | _, [] => none
  | count + 1, c :: rest =>
      if c.utf8Size ≤ count + 1 then afterBytes? (count + 1 - c.utf8Size) rest else none
termination_by _ text => text.length

/-- What is left after looking for the rest of a word, up to the first character that differs. -/
def afterWord? : (word text : List Char) → Option (List Char)
  | [], text => some text
  | _, [] => none
  | c :: word, first :: rest =>
      if first = c then afterWord? word rest else afterByte? (first :: rest)

/-! ## Texts -/

/-- The value of four hexadecimal digits in front. -/
def unit? : List Char → Option (Nat × List Char)
  | a :: b :: c :: d :: rest => do
      let a ← Hex.digitValue? a
      let b ← Hex.digitValue? b
      let c ← Hex.digitValue? c
      let d ← Hex.digitValue? d
      return (((a * 16 + b) * 16 + c) * 16 + d, rest)
  | _ => none

/-- Whether the unit is the first half of a pair of surrogates. -/
def isHighHalf (unit : Nat) : Bool := 0xD800 ≤ unit && unit ≤ 0xDBFF

/-- Whether the unit is the second half of a pair of surrogates. -/
def isLowHalf (unit : Nat) : Bool := 0xDC00 ≤ unit && unit ≤ 0xDFFF

/-- What is left after looking for the second half of a pair of surrogates, and whether it is
there. -/
def afterLowHalf? : List Char → Option (Bool × List Char)
  | '\\' :: 'u' :: rest =>
      match unit? rest with
      | none => (afterBytes? 4 rest).map fun rest => (false, rest)
      | some (unit, rest) => some (isLowHalf unit, rest)
  | '\\' :: rest => (afterByte? rest).map fun rest => (false, rest)
  | rest => (afterByte? rest).map fun rest => (false, rest)

/-- What is left after looking at an escape, after its backslash, and whether it was one. -/
def afterEscape? : List Char → Option (Bool × List Char)
  | 'u' :: rest =>
      match unit? rest with
      | none => (afterBytes? 4 rest).map fun rest => (false, rest)
      | some (unit, rest) =>
          if isHighHalf unit then afterLowHalf? rest else some (!isLowHalf unit, rest)
  | c :: rest =>
      if "\"\\/bfnrt".toList.contains c then some (true, rest)
      else (afterByte? (c :: rest)).map fun rest => (false, rest)
  | [] => none

/-- What is left after looking at a text, after its opening quote. -/
def afterText? : (fuel : Nat) → List Char → Option (List Char)
  | 0, _ => none
  | _, [] => none
  | _, '"' :: rest => some rest
  | fuel + 1, '\\' :: rest =>
      match afterEscape? rest with
      | some (true, rest) => afterText? fuel rest
      | some (false, rest) => some rest
      | none => none
  | fuel + 1, c :: rest => if c.toNat < 0x20 then some rest else afterText? fuel rest

/-! ## Numbers -/

/-- The greatest exponent that is told apart. -/
def greatestExponent : Nat := 2147483647

/-- What is left after the digits of an exponent, up to the first one that makes it too large. -/
def afterExponentDigits (exponent : Nat) : List Char → List Char
  | [] => []
  | c :: rest =>
      if c.isDigit then
        let exponent := exponent * 10 + Decimal.digitValue c
        if greatestExponent < exponent then rest else afterExponentDigits exponent rest
      else c :: rest

/-- The text after a sign, if one is in front. -/
def afterSign : List Char → List Char
  | '+' :: rest | '-' :: rest => rest
  | text => text

/-- What is left after looking at an exponent without its sign.  If it may be of any size, all of
its digits are taken. -/
def afterUnsigned? (ofAnySize : Bool) : List Char → Option (List Char)
  | c :: rest =>
      if c.isDigit then
        some (if ofAnySize then rest.dropWhile Char.isDigit else afterExponentDigits 0 (c :: rest))
      else afterByte? (c :: rest)
  | [] => none

/-- What is left after looking at an exponent of these digits, if there is one. -/
def afterExponent? (digits : List Char) : List Char → Option (List Char)
  | 'e' :: rest | 'E' :: rest =>
      afterUnsigned? (digits.all (· == '0') || rest.head? == some '-') (afterSign rest)
  | rest => some rest

/-- What is left after looking at what follows the whole part of a number; `none` if the number is
a byte. -/
def afterWhole? (negative : Bool) (whole : List Char) : List Char → Option (List Char)
  | '.' :: rest =>
      let (fraction, rest) := Decimal.spanDigits rest
      if fraction.isEmpty then some rest else afterExponent? (whole ++ fraction) rest
  | 'e' :: rest => afterExponent? whole ('e' :: rest)
  | 'E' :: rest => afterExponent? whole ('E' :: rest)
  | rest => if !negative && Decimal.ofDigits whole < 256 then none else some rest

/-- What is left after looking at a number without its sign; `none` if it is a byte, or if a digit
follows a leading zero, because that cannot close a list. -/
def afterNumber? (negative : Bool) (text : List Char) : Option (List Char) :=
  let (whole, rest) := Decimal.spanDigits text
  match whole with
  | [] => afterByte? rest
  | '0' :: _ :: _ => none
  | whole => afterWhole? negative whole rest

/-! ## Items -/

/-- What is left after looking at an item that is no byte; `none` if it is one. -/
def afterStray? : List Char → Option (List Char)
  | 'n' :: rest => afterWord? "ull".toList rest
  | 't' :: rest => afterWord? "rue".toList rest
  | 'f' :: rest => afterWord? "alse".toList rest
  | '"' :: rest => afterText? (rest.length + 1) rest
  | '-' :: rest => afterNumber? true rest
  | c :: rest => if c.isDigit then afterNumber? false (c :: rest) else none
  | [] => none

end LogRelay.Json
