import LogRelay.Text.Invisible

/-!
# Quoted text

A text in double quotes, as reports show it.  Quotes, backslashes and the common
control characters get a short escape, and characters without a printed form of
their own are written by code point.
-/

namespace LogRelay.Text

/-- A code point in the form `\u{…}` of reports. -/
def codePoint (c : Char) : List Char :=
  ['\\', 'u', '\x7b'] ++ Nat.toDigits 16 c.toNat ++ ['\x7d']

/-- How a character stands between the quotes. -/
def escape (c : Char) : List Char :=
  match c with
  | '\x00' => ['\\', '0']
  | '\t' => ['\\', 't']
  | '\r' => ['\\', 'r']
  | '\n' => ['\\', 'n']
  | '"' => ['\\', '"']
  | '\\' => ['\\', '\\']
  | c => if isInvisible c then codePoint c else [c]

/-- The text in quotes. -/
def quoted (text : String) : String :=
  String.ofList ('"' :: (text.toList.flatMap escape ++ ['"']))

end LogRelay.Text
