import LogRelay.Hex
import LogRelay.Text.Report

/-!
# Universally unique identifiers

Sixteen bytes.  The short form has 32 digits; the long form has hyphens after 8,
12, 16 and 20 digits and may stand in braces or after `urn:uuid:` in letters of any case.
-/

namespace LogRelay

/-- An identifier of sixteen bytes. -/
abbrev Uuid := Word 16

namespace Uuid

/-- The short form. -/
def short (uuid : Uuid) : String := Hex.digits uuid.bytes

/-- Text with hyphens between its groups of 8, 4, 4, 4 and 12 characters. -/
def hyphenate (text : List Char) : List Char :=
  text.take 8 ++ '-' :: ((text.drop 8).take 4 ++ '-' :: ((text.drop 12).take 4 ++
    '-' :: ((text.drop 16).take 4 ++ '-' :: text.drop 20)))

/-- The long form. -/
def long (uuid : Uuid) : String := String.ofList (hyphenate (Hex.encodeChars uuid.bytes))

/-- The digits of the long form, whose hyphens stand at fixed places. -/
def unhyphenate? (text : List Char) : Option (List Char) :=
  let digits := text.filter (· != '-')
  if hyphenate digits = text then some digits else none

/-- Reads digits without hyphens. -/
def ofDigits? (digits : List Char) : Option Uuid := do
  Word.ofBytes? 16 (← Hex.decodeChars? digits)

/-- What may stand before the long form. -/
def mark : List Char := "urn:uuid:".toList

/-- The text without its braces or its mark. -/
def unbracket (text : List Char) : List Char :=
  match text with
  | '\x7b' :: rest => if rest.getLast? = some '\x7d' then rest.dropLast else text
  | text =>
      if (text.take mark.length).map Char.toLower = mark then text.drop mark.length else text

/-- Reads an identifier in any of its forms. -/
def parse? (text : String) : Option Uuid :=
  let text := text.toList
  if text.length = 32 then ofDigits? text
  else do
    let digits ← unhyphenate? (unbracket text)
    if digits.length = 32 then ofDigits? digits else none

/-- The identifier as diagnostics of jobs show it. -/
def report (uuid : Uuid) : String := Text.reportCase "JobId" (long uuid)

/-- The identifiers in ascending order. -/
def sort (uuids : List Uuid) : List Uuid :=
  uuids.mergeSort fun first second => !decide (second < first)

end Uuid

end LogRelay
