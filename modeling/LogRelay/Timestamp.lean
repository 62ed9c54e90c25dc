import LogRelay.Decimal.Digits
import LogRelay.Text.Blank

/-!
# Points in time

A point in time is kept in universal time, as the second and the nanoseconds after
it; during a leap second the nanoseconds go beyond one thousand million.

Its text is `2024-01-02T03:04:05.678Z`, with a fraction of three, six or nine digits
where there is one.  Reading is more generous: numbers may have fewer digits, blanks
may stand before them and around the date's hyphens and the time's colons, the date
and the time may be separated by `T`, `t` or a blank, and the offset may be `Z`, `z`,
`UTC` or hours and minutes.
-/

namespace LogRelay

/-- A point in time. -/
structure Timestamp where
  /-- Whole seconds since the beginning of 1970 in universal time. -/
  seconds : Int
  /-- Nanoseconds after that second. -/
  nanoseconds : Nat
deriving DecidableEq, Inhabited

namespace Timestamp

/-! ## Calendar -/

/-- A day of the calendar. -/
structure Date where
  /-- The year, counted on from year zero in both directions. -/
  year : Int
  /-- The month, from 1. -/
  month : Nat
  /-- The day of the month, from 1. -/
  day : Nat
deriving DecidableEq

/-- Whether the year has a 29th of February. -/
def isLeap (year : Int) : Bool := year % 4 == 0 && (year % 100 != 0 || year % 400 == 0)

/-- The number of days in a month. -/
def daysInMonth (year : Int) (month : Nat) : Nat :=
  if month = 2 then (if isLeap year then 29 else 28)
  else if month ∈ [4, 6, 9, 11] then 30 else 31

/-- The first year of the calendar. -/
def firstYear : Int := -262143

/-- The last year of the calendar. -/
def lastYear : Int := 262142

/-- Whether the day exists. -/
def Date.isValid (date : Date) : Bool :=
  firstYear ≤ date.year && date.year ≤ lastYear && 1 ≤ date.month && date.month ≤ 12 &&
    1 ≤ date.day && date.day ≤ daysInMonth date.year date.month

/-- Days since the beginning of 1970.  Years are counted from March, so that the leap day
is the last day of its year. -/
def Date.toDays (date : Date) : Int :=
  let year := if date.month ≤ 2 then date.year - 1 else date.year
  let era := year / 400
  let yearOfEra := year % 400
  let month := (date.month + 9) % 12
  let dayOfYear : Int := (153 * month + 2) / 5 + date.day - 1
  let dayOfEra := yearOfEra * 365 + yearOfEra / 4 - yearOfEra / 100 + dayOfYear
  era * 146097 + dayOfEra - 719468

/-- The day with the given number of days since the beginning of 1970. -/
def Date.ofDays (days : Int) : Date :=
  let shifted := days + 719468
  let era := shifted / 146097
  let dayOfEra := (shifted % 146097).toNat
  let yearOfEra :=
    (dayOfEra - dayOfEra / 1460 + dayOfEra / 36524 - dayOfEra / 146096) / 365
  let dayOfYear := dayOfEra - (365 * yearOfEra + yearOfEra / 4 - yearOfEra / 100)
  let shiftedMonth := (5 * dayOfYear + 2) / 153
  let day := dayOfYear - (153 * shiftedMonth + 2) / 5 + 1
  let month := if shiftedMonth < 10 then shiftedMonth + 3 else shiftedMonth - 9
  let year := (yearOfEra : Int) + era * 400
  ⟨if month ≤ 2 then year + 1 else year, month, day⟩

/-! ## Writing -/

/-- A year in four digits, with a sign if it does not fit. -/
def yearText (year : Int) : String :=
  if 0 ≤ year ∧ year ≤ 9999 then Decimal.padded 4 year.toNat
  else (if year < 0 then "-" else "+") ++ Decimal.padded 4 year.natAbs

/-- The fraction of a second, in as many groups of three digits as it needs. -/
def fractionText (nanoseconds : Nat) : String :=
  if nanoseconds = 0 then ""
  else if nanoseconds % 1000000 = 0 then "." ++ Decimal.padded 3 (nanoseconds / 1000000)
  else if nanoseconds % 1000 = 0 then "." ++ Decimal.padded 6 (nanoseconds / 1000)
  else "." ++ Decimal.padded 9 nanoseconds

/-- The text of a point in time. -/
def text (time : Timestamp) : String :=
  let date := Date.ofDays (time.seconds / 86400)
  let secondOfDay := (time.seconds % 86400).toNat
  let leap := time.nanoseconds / 1000000000
  yearText date.year ++ "-" ++ Decimal.padded 2 date.month ++ "-" ++ Decimal.padded 2 date.day ++
    "T" ++ Decimal.padded 2 (secondOfDay / 3600) ++ ":" ++
    Decimal.padded 2 (secondOfDay / 60 % 60) ++ ":" ++ Decimal.padded 2 (secondOfDay % 60 + leap) ++
    fractionText (time.nanoseconds % 1000000000) ++ "Z"

/-! ## Reading -/

/-- A number of one to `width` digits, after blanks. -/
def number? (width : Nat) (text : List Char) : Option (Nat × List Char) :=
  let text := Text.dropBlanks text
  let digits := (text.take width).takeWhile Char.isDigit
  if digits.isEmpty then none else some (Decimal.ofDigits digits, text.drop digits.length)

/-- A year: up to four digits, or any number of them after a sign. -/
def year? (text : List Char) : Option (Int × List Char) :=
  match Text.dropBlanks text with
  | '-' :: rest => do
      let (digits, rest) := Decimal.spanDigits rest
      if digits.isEmpty then none else return (-(Decimal.ofDigits digits : Int), rest)
  | '+' :: rest => do
      let (digits, rest) := Decimal.spanDigits rest
      if digits.isEmpty then none else return ((Decimal.ofDigits digits : Int), rest)
  | text => do
      let (year, rest) ← number? 4 text
      return ((year : Int), rest)

/-- The character `c`, after blanks. -/
def mark? (c : Char) (text : List Char) : Option (List Char) :=
  match Text.dropBlanks text with
  | first :: rest => if first = c then some rest else none
  | [] => none

/-- An optional fraction of a second; digits beyond the ninth are dropped. -/
def fraction? (text : List Char) : Option (Nat × List Char) :=
  match text with
  | '.' :: rest =>
      let (digits, rest) := Decimal.spanDigits rest
      if digits.isEmpty then none
      else
        let kept := digits.take 9
        some (Decimal.ofDigits kept * Nat.pow 10 (9 - kept.length), rest)
  | text => some (0, text)

/-- Hours and minutes of an offset, with colons and blanks between them. -/
def offsetDigits? (text : List Char) : Option (Nat × List Char) :=
  match text with
  | h₁ :: h₂ :: rest =>
      if h₁.isDigit && h₂.isDigit then
        match rest.dropWhile (fun c => c == ':' || Text.isBlank c) with
        | m₁ :: m₂ :: rest =>
            if m₁.isDigit && m₂.isDigit && Decimal.digitValue m₁ ≤ 5 then
              some (Decimal.ofDigits [h₁, h₂] * 3600 + Decimal.ofDigits [m₁, m₂] * 60, rest)
            else none
        | _ => none
      else none
  | _ => none

/-- The offset from universal time in seconds. -/
def offset? (text : List Char) : Option (Int × List Char) :=
  match text with
  | 'Z' :: rest => some (0, rest)
  | 'z' :: rest => some (0, rest)
  | '+' :: rest => (offsetDigits? rest).map fun (offset, rest) => ((offset : Int), rest)
  | '-' :: rest => (offsetDigits? rest).map fun (offset, rest) => (-(offset : Int), rest)
  | '\u2212' :: rest => (offsetDigits? rest).map fun (offset, rest) => (-(offset : Int), rest)
  | c₁ :: c₂ :: c₃ :: rest =>
      if [c₁, c₂, c₃].map Char.toUpper = ['U', 'T', 'C'] then some (0, rest) else none
  | _ => none

/-- The point in time at a date, a time of day and an offset, if all of them exist. -/
def ofParts? (date : Date) (hour minute second nanoseconds : Nat) (offset : Int) :
    Option Timestamp :=
  if date.isValid ∧ hour ≤ 23 ∧ minute ≤ 59 ∧ second ≤ 60 ∧ offset.natAbs < 86400 then
    let leap := second / 60
    let secondOfDay : Nat := hour * 3600 + minute * 60 + (second - leap)
    let seconds := date.toDays * 86400 + secondOfDay - offset
    let utcYear := (Date.ofDays (seconds / 86400)).year
    if firstYear ≤ utcYear ∧ utcYear ≤ lastYear then
      some ⟨seconds, nanoseconds + leap * 1000000000⟩
    else none
  else none

/-- Reads a point in time. -/
def parse? (text : String) : Option Timestamp := do
  let (year, rest) ← year? text.toList
  let (month, rest) ← number? 2 (← mark? '-' rest)
  let (day, rest) ← number? 2 (← mark? '-' rest)
  let rest ← match rest with
    | 'T' :: rest => some rest
    | 't' :: rest => some rest
    | ' ' :: rest => some rest
    | _ => none
  let (hour, rest) ← number? 2 rest
  let (minute, rest) ← number? 2 (← mark? ':' rest)
  let (second, rest) ← number? 2 (← mark? ':' rest)
  let (nanoseconds, rest) ← fraction? rest
  let (offset, rest) ← offset? (Text.dropBlanks rest)
  if (Text.dropBlanks rest).isEmpty then
    ofParts? ⟨year, month, day⟩ hour minute second nanoseconds offset
  else none

end Timestamp

end LogRelay
