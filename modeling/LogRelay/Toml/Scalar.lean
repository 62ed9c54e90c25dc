import LogRelay.Toml.Lexical
import LogRelay.Settings.Value
import LogRelay.Timestamp

/-!
# Numbers, dates and truth values of TOML

A scalar without quotes is a run of characters that is either a truth value, a
number or a point in time.  Points in time are kept as texts in one form: with `T`
between date and time, `Z` for the zero offset written so, and a fraction without
superfluous zeros.  Seconds may be missing.
-/

namespace LogRelay.Toml

/-! ## Numbers -/

/-- The digits of a run in which single underscores may stand between digits. -/
def digits? (isDigit : Char → Bool) : List Char → Option (List Char)
  | [] => none
  | [c] => if isDigit c then some [c] else none
  | c :: '_' :: rest => if isDigit c then (digits? isDigit rest).map (c :: ·) else none
  | c :: rest => if isDigit c then (digits? isDigit rest).map (c :: ·) else none

/-- The sign in front, if any, and the rest. -/
def sign : List Char → List Char × List Char
  | '-' :: rest => (['-'], rest)
  | '+' :: rest => ([], rest)
  | text => ([], text)

/-- Digits without a superfluous zero in front. -/
def whole? (text : List Char) : Option (List Char) := do
  let digits ← digits? Char.isDigit text
  if 1 < digits.length ∧ digits.head? = some '0' then none else some digits

/-- A whole number in the given base, after its mark. -/
def based? (base : Nat) (text : List Char) : Option Int := do
  let isDigit (c : Char) : Bool := (Hex.digitValue? c).any fun value => value < base
  let digits ← digits? isDigit text
  let value := digits.foldl (fun value c => value * base + (Hex.digitValue? c).getD 0) 0
  if (value : Int) ≤ Decimal.greatestInt64 then some value else none

/-- A whole number. -/
def integer? (text : List Char) : Option Int :=
  match text with
  | '0' :: 'x' :: rest => based? 16 rest
  | '0' :: 'o' :: rest => based? 8 rest
  | '0' :: 'b' :: rest => based? 2 rest
  | text => do
      let (sign, rest) := sign text
      Decimal.int64? (sign ++ (← whole? rest))

/-- The digits of a fraction, with their point, and the rest up to the exponent. -/
def fraction? (text : List Char) : Option (List Char) :=
  match text with
  | [] => some []
  | '.' :: rest => (digits? Char.isDigit rest).map ('.' :: ·)
  | _ => none

/-- An exponent with its letter. -/
def exponent? (text : List Char) : Option (List Char) :=
  match text with
  | [] => some []
  | letter :: rest =>
      let (sign, rest) := sign rest
      (digits? Char.isDigit rest).map fun digits => letter :: (sign ++ digits)

/-- A number with a fraction or an exponent. -/
def decimal? (text : List Char) : Option Float := do
  let (sign, rest) := sign text
  let isMark (c : Char) := c == '.' || c == 'e' || c == 'E'
  let whole ← whole? (rest.takeWhile fun c => !isMark c)
  let rest := rest.dropWhile fun c => !isMark c
  let fraction ← fraction? (rest.takeWhile fun c => c != 'e' && c != 'E')
  let exponent ← exponent? (rest.dropWhile fun c => c != 'e' && c != 'E')
  if fraction.isEmpty ∧ exponent.isEmpty then none
  else
    let value ← Decimal.float? (String.ofList (sign ++ whole ++ fraction ++ exponent))
    if value.isInf then none else some value

/-- A number in binary floating point. -/
def float? (text : List Char) : Option Float :=
  let (sign, rest) := sign text
  if rest = "inf".toList ∨ rest = "nan".toList then
    Decimal.float? (String.ofList (sign ++ rest))
  else decimal? text

/-! ## Points in time -/

/-- Exactly `width` digits in front. -/
def fixed? (width : Nat) (text : List Char) : Option (Nat × List Char) :=
  let digits := text.take width
  if digits.length = width ∧ digits.all Char.isDigit then
    some (Decimal.ofDigits digits, text.drop width)
  else none

/-- The rest after a character in front. -/
def mark? (c : Char) : List Char → Option (List Char)
  | first :: rest => if first = c then some rest else none
  | [] => none

/-- A date in front, in its usual form. -/
def date? (text : List Char) : Option (String × List Char) := do
  let (year, rest) ← fixed? 4 text
  let (month, rest) ← fixed? 2 (← mark? '-' rest)
  let (day, rest) ← fixed? 2 (← mark? '-' rest)
  if (Timestamp.Date.mk year month day).isValid then
    some (Decimal.padded 4 year ++ "-" ++ Decimal.padded 2 month ++ "-" ++ Decimal.padded 2 day,
      rest)
  else none

/-- The first nine digits of a fraction, without superfluous zeros, and its point. -/
def fractionText (digits : List Char) : String :=
  let kept := ((digits.take 9).reverse.dropWhile (· == '0')).reverse
  String.ofList ('.' :: if kept.isEmpty then ['0'] else kept)

/-- The fraction of a second in front, if there is one. -/
def secondFraction? : List Char → Option (String × List Char)
  | '.' :: rest =>
      let (digits, rest) := Decimal.spanDigits rest
      if digits.isEmpty then none else some (fractionText digits, rest)
  | text => some ("", text)

/-- The seconds in front, if there are any, with the colon before them. -/
def seconds? : List Char → Option (String × List Char)
  | ':' :: rest => do
      let (second, rest) ← fixed? 2 rest
      let (fraction, rest) ← secondFraction? rest
      if second ≤ 60 then some (":" ++ Decimal.padded 2 second ++ fraction, rest) else none
  | text => some ("", text)

/-- A time in front, in its usual form. -/
def time? (text : List Char) : Option (String × List Char) := do
  let (hour, rest) ← fixed? 2 text
  let (minute, rest) ← fixed? 2 (← mark? ':' rest)
  let (seconds, rest) ← seconds? rest
  if hour ≤ 23 ∧ minute ≤ 59 then
    some (Decimal.padded 2 hour ++ ":" ++ Decimal.padded 2 minute ++ seconds, rest)
  else none

/-- An offset from universal time in front, if there is one; no offset is a positive one. -/
def offset? : List Char → Option (String × List Char)
  | [] => some ("", [])
  | c :: rest => do
      if c = 'Z' ∨ c = 'z' then some ("Z", rest)
      else if c = '+' ∨ c = '-' then
        let (hours, rest) ← fixed? 2 rest
        let (minutes, rest) ← fixed? 2 (← mark? ':' rest)
        let sign := if hours = 0 ∧ minutes = 0 then '+' else c
        if hours ≤ 23 ∧ minutes ≤ 59 then
          some (String.singleton sign ++ Decimal.padded 2 hours ++ ":" ++ Decimal.padded 2 minutes,
            rest)
        else none
      else some ("", c :: rest)

/-- Nothing but a point in time, a date or a time of day. -/
def moment? (text : List Char) : Option String := do
  match date? text with
  | some (date, []) => some date
  | some (date, c :: rest) =>
      if c = 'T' ∨ c = 't' ∨ c = ' ' then
        let (time, rest) ← time? rest
        let (offset, rest) ← offset? rest
        if rest.isEmpty then some (date ++ "T" ++ time ++ offset) else none
      else none
  | none =>
      let (time, rest) ← time? text
      if rest.isEmpty then some time else none

/-! ## Scalars -/

/-- Whether the character may stand in a scalar without quotes. -/
def isScalarPart (c : Char) : Bool :=
  c.isAlphanum || c == '+' || c == '-' || c == '_' || c == '.' || c == ':'

/-- The characters of a scalar without quotes.  A blank between a date and a time belongs to
them. -/
def scalarRun (text : List Char) : List Char × List Char :=
  let run := text.takeWhile isScalarPart
  let rest := text.dropWhile isScalarPart
  match date? run, rest with
  | some (_, []), ' ' :: after =>
      if (after.head?.map Char.isDigit).getD false then
        (run ++ ' ' :: after.takeWhile isScalarPart, after.dropWhile isScalarPart)
      else (run, rest)
  | _, _ => (run, rest)

/-- The value of a scalar without quotes. -/
def ofScalar? (run : List Char) : Option Setting :=
  if run = "true".toList then some (.bool true)
  else if run = "false".toList then some (.bool false)
  else
    ((integer? run).map Setting.int).or
      (((float? run).map Setting.float).or ((moment? run).map Setting.text))

/-- A scalar in front. -/
def scalar? (text : List Char) : Option (Setting × List Char) :=
  match text? text with
  | some (value, rest) => some (.text (String.ofList value), rest)
  | none =>
      let (run, rest) := scalarRun text
      (ofScalar? run).map fun value => (value, rest)

end LogRelay.Toml
