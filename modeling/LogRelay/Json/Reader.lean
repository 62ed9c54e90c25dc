import LogRelay.Json.Basic
import LogRelay.Json.Stray

/-!
# Reading JSON

The grammar of the format, without any extension: no comments, no trailing commas and
no raw control characters in texts.  Each reader takes what stands in front and returns
the rest; the fuel of the mutual readers is the length of the text, since each of them
takes at least one character.

What a text is expected to hold (`Form`) matters in one place only: a list that has to
hold a fixed number of bytes is read more generously than others.
-/

namespace LogRelay.Json

/-- What a text is expected to hold. -/
inductive Form where
  /-- Anything. -/
  | any
  /-- So many bytes, if it is a list. -/
  | word (size : Nat)
  /-- Items of the same form, if it is a list. -/
  | list (item : Form)
  /-- Fields with these names, in their order if it is a list. -/
  | record (fields : List (String × Form))

namespace Form

/-- The form of the item at a place of a list. -/
def ofItem (place : Nat) : Form → Form
  | list item => item
  | record fields => (fields[place]?.map (·.2)).getD any
  | _ => any

/-- The form of the member with a name. -/
def ofMember (name : String) : Form → Form
  | record fields => (fields.lookup name).getD any
  | _ => any

end Form

/-- The characters between tokens. -/
def isSpace (c : Char) : Bool := c == ' ' || c == '\n' || c == '\t' || c == '\r'

/-- The text from its next token on. -/
def skip (text : List Char) : List Char := text.dropWhile isSpace

/-! ## Texts -/

/-- The character of a `\u` escape, whose digits are in front, or no character for half a pair
of surrogates. -/
def unicode? (text : List Char) : Option (Option Char × List Char) := do
  let (unit, rest) ← unit? text
  if isHighHalf unit then
    match rest with
    | '\\' :: 'u' :: after =>
        let (low, after) ← unit? after
        if isLowHalf low then
          return (some (Char.ofNat (0x10000 + (unit - 0xD800) * 0x400 + (low - 0xDC00))), after)
        else return (none, rest)
    | _ => return (none, rest)
  else if isLowHalf unit then return (none, rest)
  else return (some (Char.ofNat unit), rest)

/-- The character of an escape, after its backslash. -/
def escape? : List Char → Option (Option Char × List Char)
  | '"' :: rest => some ('"', rest)
  | '\\' :: rest => some ('\\', rest)
  | '/' :: rest => some ('/', rest)
  | 'b' :: rest => some ('\x08', rest)
  | 'f' :: rest => some ('\x0c', rest)
  | 'n' :: rest => some ('\n', rest)
  | 'r' :: rest => some ('\r', rest)
  | 't' :: rest => some ('\t', rest)
  | 'u' :: rest => unicode? rest
  | _ => none

/-- The characters of a text up to its closing quote, if it stands for characters. -/
def characters? : (fuel : Nat) → List Char → Option (Option (List Char) × List Char)
  | 0, _ => none
  | _, [] => none
  | _ + 1, '"' :: rest => some (some [], rest)
  | fuel + 1, '\\' :: rest => do
      let (c, rest) ← escape? rest
      let (following, rest) ← characters? fuel rest
      return (do return (← c) :: (← following), rest)
  | fuel + 1, c :: rest =>
      if c.toNat < 0x20 then none
      else do
        let (following, rest) ← characters? fuel rest
        return (following.map (c :: ·), rest)

/-- A text, whose opening quote is in front, if it stands for characters. -/
def string? : List Char → Option (Option String × List Char)
  | '"' :: rest => do
      let (characters, rest) ← characters? (rest.length + 1) rest
      return (characters.map String.ofList, rest)
  | _ => none

/-! ## Values -/

/-- The rest of the text after `word`, if it stands in front. -/
def word? (word : String) (text : List Char) : Option (List Char) :=
  if word.toList.isPrefixOf text then some (text.drop word.length) else none

/-- A value as it is written in front of a rest. -/
def asWritten (text rest : List Char) : Json :=
  verbatim (String.ofList (text.take (text.length - rest.length)))

/-- The text after a comma in front. -/
def afterComma? : List Char → Option (List Char)
  | ',' :: rest => some rest
  | _ => none

/-- The text after a closing bracket in front. -/
def afterBracket? : List Char → Option (List Char)
  | ']' :: rest => some rest
  | _ => none

/-- Bytes in front, with commas between them. -/
def bytes? : (count : Nat) → List Char → Option (List Json × List Char)
  | 0, text => some ([], text)
  | count + 1, text => do
      let (value, rest) ← Number.read? (skip text)
      let _ ← (number value).byte?
      if count = 0 then return ([number value], skip rest)
      else
        let (following, rest) ← bytes? count (← afterComma? (skip rest))
        return (number value :: following, rest)

/-- The rest after the end of a list that holds all its bytes already.  Before it there may be a
comma and one item that is no byte. -/
def endOfBytes? (text : List Char) : Option (List Char) :=
  match skip text with
  | ']' :: rest => some rest
  | ',' :: rest => do
      let rest := skip rest
      let rest ← if rest.head? = some ']' then some rest else afterStray? rest
      afterBracket? (skip rest)
  | _ => none

mutual

/-- A value in front. -/
def value? : (fuel : Nat) → Form → List Char → Option (Json × List Char)
  | 0, _, _ => none
  | fuel + 1, form, text =>
      match text with
      | 'n' :: _ => (word? "null" text).map fun rest => (null, rest)
      | 't' :: _ => (word? "true" text).map fun rest => (bool true, rest)
      | 'f' :: _ => (word? "false" text).map fun rest => (bool false, rest)
      | '"' :: _ => (string? text).map fun (value, rest) =>
          (value.elim (asWritten text rest) string, rest)
      | '[' :: rest =>
          match form, skip rest with
          | .word size, rest => do
              let (bytes, rest) ← bytes? size rest
              return (list bytes, ← endOfBytes? rest)
          | _, ']' :: rest => some (list [], rest)
          | form, rest => (items? fuel form 0 rest).map fun (items, rest) => (list items, rest)
      | '\x7b' :: rest =>
          match skip rest with
          | '\x7d' :: rest => some (object [], rest)
          | rest => (members? fuel form rest).map fun (members, rest) =>
              (members.elim (asWritten text rest) object, rest)
      | _ => (Number.read? text).map fun (value, rest) => (number value, rest)

/-- The items of a list from the given place up to its closing bracket; there is at least one. -/
def items? : (fuel : Nat) → Form → (place : Nat) → List Char → Option (List Json × List Char)
  | 0, _, _, _ => none
  | fuel + 1, form, place, text => do
      let (item, rest) ← value? fuel (form.ofItem place) text
      match skip rest with
      | ',' :: rest =>
          let (items, rest) ← items? fuel form (place + 1) (skip rest)
          return (item :: items, rest)
      | ']' :: rest => return ([item], rest)
      | _ => none

/-- The members of an object up to its closing brace, if all of them have names; there is at
least one. -/
def members? : (fuel : Nat) → Form → List Char →
    Option (Option (List (String × Json)) × List Char)
  | 0, _, _ => none
  | fuel + 1, form, text => do
      let (name, rest) ← string? text
      match skip rest with
      | ':' :: rest =>
          let (value, rest) ← value? fuel (name.elim .any form.ofMember) (skip rest)
          let member := name.map fun name => (name, value)
          match skip rest with
          | ',' :: rest =>
              let (members, rest) ← members? fuel form (skip rest)
              return (do return (← member) :: (← members), rest)
          | '\x7d' :: rest => return (member.map fun member => [member], rest)
          | _ => none
      | _ => none

end

/-- Reads a text that holds one value of the form and nothing else. -/
def read? (form : Form) (text : String) : Option Json := do
  let text := text.toList
  let (value, rest) ← value? (text.length + 1) form (skip text)
  if (skip rest).isEmpty then some value else none

/-- Reads a text that holds one value and nothing else. -/
def parse? (text : String) : Option Json := read? .any text

end LogRelay.Json
