import LogRelay.Json.Reader
import LogRelay.Decimal.Binary

/-!
# Blanks, comments, texts and keys of TOML

Each reader takes what stands in front of a list of characters and returns the rest.
Lines end with a line feed or with a carriage return and a line feed; other control
characters are refused everywhere.
-/

namespace LogRelay.Toml

/-- Whether the character is a blank. -/
def isBlank (c : Char) : Bool := c == ' ' || c == '\t'

/-- The text from its first character on that is no blank. -/
def skipBlanks (text : List Char) : List Char := text.dropWhile isBlank

/-- The rest after the end of a line, if the line ends here. -/
def lineEnd? : List Char → Option (List Char)
  | '\n' :: rest => some rest
  | '\r' :: '\n' :: rest => some rest
  | _ => none

/-- Whether the character is refused. -/
def isControl (c : Char) : Bool := (c.toNat < 0x20 && c != '\t') || c.toNat == 0x7F

/-- The rest of the line's comment, if there is one. -/
def comment? : List Char → Option (List Char)
  | '#' :: rest =>
      let rest := rest.dropWhile fun c => !isControl c
      if rest.isEmpty || (lineEnd? rest).isSome then some rest else none
  | text => some text

/-- The text from the next line on; before it only blanks and a comment may stand. -/
def nextLine? (text : List Char) : Option (List Char) := do
  let rest ← comment? (skipBlanks text)
  if rest.isEmpty then some [] else lineEnd? rest

/-- The text from its first character on that belongs to no blank, comment or line end. -/
def skipLines? : (fuel : Nat) → List Char → Option (List Char)
  | 0, text => some text
  | fuel + 1, text => do
      let rest ← comment? (skipBlanks text)
      match lineEnd? rest with
      | some rest => skipLines? fuel rest
      | none => some rest

/-! ## Texts -/

/-- The character with the code point that `width` hexadecimal digits in front write. -/
def codePoint? (width : Nat) (text : List Char) : Option (Char × List Char) := do
  let digits ← (text.take width).mapM Hex.digitValue?
  if digits.length < width then none
  else
    let value := digits.foldl (fun value digit => value * 16 + digit) 0
    if value.isValidChar then some (Char.ofNat value, text.drop width) else none

/-- The character of an escape, after its backslash. -/
def escape? : List Char → Option (Char × List Char)
  | 'b' :: rest => some ('\x08', rest)
  | 't' :: rest => some ('\t', rest)
  | 'n' :: rest => some ('\n', rest)
  | 'f' :: rest => some ('\x0c', rest)
  | 'r' :: rest => some ('\r', rest)
  | 'e' :: rest => some ('\x1b', rest)
  | '"' :: rest => some ('"', rest)
  | '\\' :: rest => some ('\\', rest)
  | 'x' :: rest => codePoint? 2 rest
  | 'u' :: rest => codePoint? 4 rest
  | 'U' :: rest => codePoint? 8 rest
  | _ => none

/-- The characters up to a closing quote on the same line. -/
def line? (quote : Char) (escapes : Bool) : (fuel : Nat) → List Char →
    Option (List Char × List Char)
  | 0, _ => none
  | _, [] => none
  | fuel + 1, c :: rest => do
      if c = quote then return ([], rest)
      else if isControl c then none
      else
        let (c, rest) ← if escapes && c == '\\' then escape? rest else some (c, rest)
        let (following, rest) ← line? quote escapes fuel rest
        return (c :: following, rest)

/-- The rest after a backslash at the end of a line and the blanks and lines after it. -/
def continuation? (text : List Char) : Option (List Char) := do
  let _ ← lineEnd? (skipBlanks text)
  return text.dropWhile fun c => isBlank c || c == '\n' || c == '\r'

/-- The characters up to three closing quotes, over several lines, whose ends stay as they are.
Up to two more quotes before them belong to the text. -/
def lines? (quote : Char) (escapes : Bool) : (fuel : Nat) → List Char →
    Option (List Char × List Char)
  | 0, _ => none
  | _, [] => none
  | fuel + 1, c :: rest => do
      let quotes := (c :: rest).takeWhile (· == quote)
      if 3 ≤ quotes.length then
        let extra := min (quotes.length - 3) 2
        return (List.replicate extra quote, (c :: rest).drop (extra + 3))
      else if escapes && c == '\\' then
        match continuation? rest with
        | some rest => lines? quote escapes fuel rest
        | none =>
            let (c, rest) ← escape? rest
            let (following, rest) ← lines? quote escapes fuel rest
            return (c :: following, rest)
      else
        if isControl c && (lineEnd? (c :: rest)).isNone then none
        else
          let (following, rest) ← lines? quote escapes fuel rest
          return (c :: following, rest)

/-- A text whose first line end is left out. -/
def paragraph? (quote : Char) (escapes : Bool) (text : List Char) :
    Option (List Char × List Char) :=
  let text := (lineEnd? text).getD text
  lines? quote escapes (text.length + 1) text

/-- A text on one line, whose opening quote is in front. -/
def lineText? : List Char → Option (List Char × List Char)
  | '"' :: rest => line? '"' true (rest.length + 1) rest
  | '\'' :: rest => line? '\'' false (rest.length + 1) rest
  | _ => none

/-- A text, whose opening quotes are in front. -/
def text? : List Char → Option (List Char × List Char)
  | '"' :: '"' :: '"' :: rest => paragraph? '"' true rest
  | '\'' :: '\'' :: '\'' :: rest => paragraph? '\'' false rest
  | text => lineText? text

/-! ## Keys -/

/-- Whether the character may stand in a key without quotes. -/
def isKeyPart (c : Char) : Bool := c.isAlphanum || c == '_' || c == '-'

/-- One part of a key in front. -/
def keyPart? (text : List Char) : Option (String × List Char) :=
  match lineText? text with
  | some (part, rest) => some (String.ofList part, rest)
  | none =>
      let part := text.takeWhile isKeyPart
      if part.isEmpty then none else some (String.ofList part, text.dropWhile isKeyPart)

/-- How many parts a key may have, and how many lists and tables a value may have inside each
other. -/
def nestingLimit : Nat := 80

/-- A key in front: at most so many parts with points between them. -/
def keyParts? : (limit : Nat) → List Char → Option (List String × List Char)
  | 0, _ => none
  | limit + 1, text => do
      let (part, rest) ← keyPart? (skipBlanks text)
      match skipBlanks rest with
      | '.' :: rest =>
          let (parts, rest) ← keyParts? limit rest
          return (part :: parts, rest)
      | rest => return ([part], rest)

/-- A key in front. -/
def key? (text : List Char) : Option (List String × List Char) := keyParts? nestingLimit text

end LogRelay.Toml
