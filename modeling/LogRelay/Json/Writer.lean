import LogRelay.Json.Basic
import LogRelay.Decimal.Shortest
import LogRelay.Hex

/-!
# Writing JSON

The compact form: no blanks between tokens.  Texts escape quotes, backslashes and
control characters and nothing else.
-/

namespace LogRelay.Json

/-- How a character stands in a text. -/
def escape (c : Char) : List Char :=
  if c = '"' then ['\\', '"']
  else if c = '\\' then ['\\', '\\']
  else if c = '\x08' then ['\\', 'b']
  else if c = '\x0c' then ['\\', 'f']
  else if c = '\n' then ['\\', 'n']
  else if c = '\r' then ['\\', 'r']
  else if c = '\t' then ['\\', 't']
  else if c.toNat < 0x20 then
    ['\\', 'u', '0', '0', Hex.digit (c.toNat / 16), Hex.digit (c.toNat % 16)]
  else [c]

/-- A text in quotes. -/
def quote (text : String) : List Char := '"' :: (text.toList.flatMap escape ++ ['"'])

/-- A number that is written with its sign and its digits. -/
def Number.chars (number : Number) : List Char :=
  (if number.negative then ['-'] else []) ++ Nat.toDigits 10 number.significand

mutual

/-- The characters of a value. -/
def chars : Json → List Char
  | null => "null".toList
  | bool true => "true".toList
  | bool false => "false".toList
  | number value => value.chars
  | string value => quote value
  | list items => '[' :: (itemChars items ++ [']'])
  | object members => '\x7b' :: (memberChars members ++ ['\x7d'])
  | verbatim written => written.toList

/-- The items of a list with commas between them. -/
def itemChars : List Json → List Char
  | [] => []
  | [item] => chars item
  | item :: rest => chars item ++ ',' :: itemChars rest

/-- The members of an object with commas between them. -/
def memberChars : List (String × Json) → List Char
  | [] => []
  | [(name, value)] => quote name ++ ':' :: chars value
  | (name, value) :: rest => quote name ++ ':' :: (chars value ++ ',' :: memberChars rest)

end

/-- The text of an object whose members' values are already written. -/
def assemble (members : List (String × String)) : String :=
  let member := fun (name, value) => String.ofList (quote name) ++ ":" ++ value
  "\x7b" ++ ",".intercalate (members.map member) ++ "\x7d"

/-- The text of a value. -/
def render (json : Json) : String := String.ofList json.chars

end LogRelay.Json
