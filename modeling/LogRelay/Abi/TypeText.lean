import LogRelay.Abi.Type
import LogRelay.Decimal.Digits

/-!
# Types in writing

A type is written as a name or as types in parentheses, followed by any number of
array suffixes: `[]` for a list of any length and `[n]` for a list of length `n`,
which is not zero.  Reading (`TypeText.parse`) only looks at this form and says where
it ends if the text is none; which names there are is decided afterwards
(`TypeText.resolve`).

A name with a point and a second name after it stands for an enumeration of a library,
whose values are small numbers.
-/

namespace LogRelay

/-! ## Identifiers -/

/-- Whether the character may begin an identifier. -/
def isIdentifierStart (c : Char) : Bool := c.isAlpha || c == '_' || c == '$'

/-- Whether the character may stand in an identifier. -/
def isIdentifierPart (c : Char) : Bool := isIdentifierStart c || c.isDigit

/-- Whether the text is an identifier. -/
def isIdentifier (text : List Char) : Bool :=
  match text with
  | [] => false
  | c :: rest => isIdentifierStart c && rest.all isIdentifierPart

/-! ## The written form -/

/-- One array suffix: the length, if it is fixed. -/
abbrev ArraySuffix := Option Nat

/-- A type as it is written. -/
inductive TypeText where
  /-- A name with array suffixes. -/
  | named (name : String) (suffixes : List ArraySuffix)
  /-- Types in parentheses with array suffixes. -/
  | tuple (elements : List TypeText) (suffixes : List ArraySuffix)
deriving Inhabited

/-! ## Misprints -/

/-- What is wrong at the place where a written type breaks off. -/
inductive Misprint where
  /-- Nothing can go on like this. -/
  | unexpected
  /-- Only this character can go on. -/
  | expected (c : Char)
  /-- A list has the fixed length zero. -/
  | zeroLength
  /-- A fixed length has more than 64 bits. -/
  | greatLength
  /-- There are too many parentheses inside each other. -/
  | tooDeep
deriving DecidableEq, Inhabited

/-- The remark on a misprint. -/
def Misprint.remark : Misprint → String
  | unexpected => ""
  | expected c => "expected `" ++ c.toString ++ "`"
  | zeroLength => "number would be zero for non-zero type"
  | greatLength => "number too large to fit in target type"
  | tooDeep => "recursion limit exceeded"

/-- Why there is no type in front of a text. -/
structure Impasse where
  misprint : Misprint
  /-- The number of characters from the place on. -/
  left : Nat
  /-- Whether nothing else may be tried instead. -/
  settled : Bool

/-- Reading from the front of a text: what was read and the rest. -/
abbrev TypeReading (α : Type) := List Char → Except Impasse (α × List Char)

namespace TypeText

/-- The array suffixes of a type. -/
def suffixes : TypeText → List ArraySuffix
  | named _ suffixes => suffixes
  | tuple _ suffixes => suffixes

/-- What an enumeration of a library stands for. -/
def enumeration : String := "uint8"

/-- How many parentheses may stand inside each other. -/
def nesting : Nat := 79

/-- The text from its first character on that is neither a blank nor a tabulator. -/
def skip (text : List Char) : List Char := text.dropWhile fun c => c == ' ' || c == '\t'

/-- The identifier in front, which may be empty, and the rest. -/
def spanIdentifier : List Char → List Char × List Char
  | [] => ([], [])
  | c :: rest =>
      if isIdentifierStart c then
        (c :: rest.takeWhile isIdentifierPart, rest.dropWhile isIdentifierPart)
      else ([], c :: rest)

/-- Reads a name. -/
def name : TypeReading String := fun text =>
  match spanIdentifier text with
  | ([], rest) => .error ⟨.unexpected, rest.length, false⟩
  | (_, '.' :: rest) => .ok (enumeration, (spanIdentifier rest).2)
  | (name, rest) => .ok (String.ofList name, rest)

/-- Reads one array suffix after its opening bracket. -/
def suffix : TypeReading ArraySuffix := fun text => do
  let (digits, rest) := Decimal.spanDigits text
  let length := Decimal.ofDigits digits
  if digits.isEmpty then return (none, ← closing rest)
  else if length = 0 then throw ⟨.zeroLength, rest.length, false⟩
  else if Decimal.greatestUInt64 < length then throw ⟨.greatLength, rest.length, false⟩
  else return (some length, ← closing rest)
where
  /-- The rest after the closing bracket. -/
  closing : List Char → Except Impasse (List Char)
    | ']' :: rest => .ok rest
    | rest => .error ⟨.expected ']', rest.length, true⟩

/-- Reads array suffixes as long as there are any. -/
def suffixesFrom : (fuel : Nat) → TypeReading (List ArraySuffix)
  | fuel + 1, '[' :: rest =>
      match suffix rest with
      | .ok (suffix, rest) => do
          let (following, rest) ← suffixesFrom fuel rest
          return (suffix :: following, rest)
      | .error impasse =>
          if impasse.settled then .error impasse else .ok ([], '[' :: rest)
  | _, text => .ok ([], text)

/-- Reads the array suffixes of a type, the first of which has to be right if there is a
bracket. -/
def suffixesOf : TypeReading (List ArraySuffix) := fun text =>
  match text with
  | '[' :: rest => do
      let (suffix, rest) ← suffix rest
      let (following, rest) ← suffixesFrom rest.length rest
      return (suffix :: following, rest)
  | _ => .ok ([], text)

/-- The rest after the closing parenthesis. -/
def afterParenthesis (text : List Char) : Except Impasse (List Char) :=
  match skip text with
  | ')' :: rest => .ok rest
  | rest => .error ⟨.expected ')', rest.length, true⟩

mutual

/-- Reads a type with at most `room` parentheses inside each other. -/
def type : (fuel room : Nat) → TypeReading TypeText
  | 0, _, text => .error ⟨.unexpected, text.length, true⟩
  | fuel + 1, room, text => do
      let inner := if "tuple(".toList.isPrefixOf text then text.drop 5 else text
      match inner with
      | '(' :: rest =>
          let (elements, rest) ← match skip rest with
            | ')' :: rest => .ok ([], rest)
            | rest => elements fuel room rest
          let (suffixes, rest) ← suffixesOf rest
          return (tuple elements suffixes, rest)
      | _ =>
          let (name, rest) ← name inner
          let (suffixes, rest) ← suffixesOf rest
          return (named name suffixes, rest)

/-- Reads types up to the closing parenthesis; there is at least one, and a comma may follow
the last. -/
def elements : (fuel room : Nat) → TypeReading (List TypeText)
  | _, 0, text => .error ⟨.tooDeep, text.length, true⟩
  | 0, _, text => .error ⟨.unexpected, text.length, true⟩
  | fuel + 1, room + 1, text => do
      let (element, rest) ← type fuel room text
      match rest with
      | ',' :: rest =>
          match elements fuel (room + 1) (skip rest) with
          | .ok (following, rest) => return (element :: following, rest)
          | .error impasse =>
              if impasse.settled then throw impasse
              else return ([element], ← afterParenthesis rest)
      | rest => return ([element], ← afterParenthesis rest)

end

/-- Reads a whole text as a type. -/
def parse (text : String) : Except Impasse TypeText := do
  let text := text.toList
  let (type, rest) ← type (text.length + 1) nesting text
  if rest.isEmpty then return type else throw ⟨.unexpected, rest.length, true⟩

/-- Whether the text is a written type. -/
def isWritten (text : String) : Bool := (parse text).toOption.isSome

end TypeText

/-! ## Names -/

/-- Why a written type is none. -/
inductive TypeError where
  | unknown (text : String)
  /-- The type does not exist in this size. -/
  | size (text : String)
  /-- The text breaks off after `position` characters. -/
  | brokenOff (text : String) (position : Nat) (misprint : Misprint)
deriving DecidableEq, Inhabited

namespace TypeError

/-- The text with a mark under the place and the remark on the next line.  Of several lines
only the first is shown, which is the one with the place, after its number. -/
def pointOut (text : String) (position : Nat) (remark : String) : String :=
  let line := String.ofList (text.toList.takeWhile (· ≠ '\n'))
  let blanks := String.ofList (List.replicate position ' ')
  if text.toList.contains '\n' then
    "parse error at line 1, column " ++ toString (position + 1) ++ "\n  |\n1 | " ++ line ++
      "\n  | " ++ blanks ++ "^\n" ++ remark
  else line ++ "\n" ++ blanks ++ "^\n" ++ remark

/-- The message of an error. -/
def message : TypeError → String
  | unknown text => "invalid type string: " ++ text
  | size text => "invalid size for type: " ++ text
  | brokenOff text position misprint =>
      "parser error:\n" ++ pointOut text position misprint.remark

end TypeError

namespace TypeText

/-- Reads a whole text as a type, with the place of the misprint if it is none. -/
def read (text : String) : Except TypeError TypeText :=
  match parse text with
  | .ok written => .ok written
  | .error impasse => .error (.brokenOff text (text.length - impasse.left) impasse.misprint)

/-- The number that is written by the digits, if 64 bits can hold it. -/
def sizeOfDigits? (digits : List Char) : Option Nat :=
  if !digits.isEmpty && digits.all Char.isDigit then
    let size := Decimal.ofDigits digits
    if size ≤ Decimal.greatestUInt64 then some size else none
  else none

/-- What follows `mark` at the start of the name. -/
def after? (mark : String) (name : String) : Option (List Char) :=
  if mark.toList.isPrefixOf name.toList then some (name.toList.drop mark.length) else none

/-- Whether a number type may have this many bits. -/
def isWidth (bits : Nat) : Bool := 0 < bits && bits ≤ 256 && bits % 8 == 0

/-- Whether a byte string may have this fixed length. -/
def isLength (size : Nat) : Bool := 0 < size && size ≤ 32

/-- The type with a name.  Whatever begins like a type with a size is one, so that only its size
can be wrong. -/
def resolveName (name : String) : Except TypeError AbiType :=
  let sized (digits : List Char) (isSize : Nat → Bool) (type : Nat → AbiType) :=
    match (sizeOfDigits? digits).filter isSize with
    | some size => .ok (type size)
    | none => .error (.size name)
  match name with
  | "address" => .ok .address
  | "function" => .ok .function
  | "bool" => .ok .bool
  | "string" => .ok .string
  | "bytes" => .ok .bytes
  | "uint" => .ok (.uint 256)
  | "int" => .ok (.int 256)
  | _ =>
      match after? "bytes" name, after? "uint" name, after? "int" name with
      | some digits, _, _ => sized digits isLength .fixedBytes
      | _, some digits, _ => sized digits isWidth .uint
      | _, _, some digits => sized digits isWidth .int
      | _, _, _ => .error (.unknown name)

/-- The type with array suffixes, the innermost first. -/
def wrap (type : AbiType) (suffixes : List ArraySuffix) : AbiType :=
  suffixes.foldl (fun type suffix =>
    match suffix with
    | none => .array type
    | some length => .fixedArray type length) type

mutual

/-- The type that is meant. -/
def resolve : TypeText → Except TypeError AbiType
  | named name suffixes => do return wrap (← resolveName name) suffixes
  | tuple elements suffixes => do return wrap (.tuple (← resolveAll elements)) suffixes

/-- The types that are meant; the first one that is none decides the error. -/
def resolveAll : List TypeText → Except TypeError (List AbiType)
  | [] => .ok []
  | type :: rest => do
      let type ← resolve type
      return type :: (← resolveAll rest)

end

end TypeText

end LogRelay
