import LogRelay.Decimal.Binary
import LogRelay.Logging.Level
import LogRelay.Logging.PatternText
import LogRelay.Text.Alphanumeric
import LogRelay.Text.Blank

/-!
# Directives

A directive sets the threshold for some events.  It is a threshold alone, which then holds
for all events, or names a target, with the threshold after an equality sign:
`target=threshold`.  In brackets after the target it may name a span, and in braces
a field that events must have: `target[span{field}]=threshold`.  A directive without
a threshold lets everything pass.
-/

namespace LogRelay

/-- What a directive asks of a field. -/
structure FieldTest where
  name : String
  /-- What its value has to look like, if that matters. -/
  value : Option String := none
deriving DecidableEq, Inhabited

/-- Sets the threshold for some events. -/
structure Directive where
  /-- What the targets of the events begin with. -/
  target : Option String := none
  /-- The span that the events happen in. -/
  span : Option String := none
  /-- The fields that the events have. -/
  fields : List FieldTest := []
  /-- Up to which level they pass. -/
  threshold : Threshold := .upTo .trace
deriving DecidableEq, Inhabited

namespace Directive

/-- A character of a directive.  Where the parts of a directive end is seen in the text without
the blanks at its ends; the parts are then cut out of the text with the blanks at the same places,
so that both differ if there are blanks in front. -/
structure Cell where
  /-- The character that tells where parts end. -/
  seen : Char
  /-- The character that belongs to the part. -/
  kept : Char

/-- The text of a part. -/
def Cell.text (cells : List Cell) : List Char := cells.map (·.kept)

/-- The cells up to the first one in which one of the marks is seen, and the rest. -/
def Cell.upTo (marks : List Char) (cells : List Cell) : List Cell × List Cell :=
  cells.span fun cell => !marks.contains cell.seen

/-- Whether a directive may begin with a character. -/
def mayBegin (c : Char) : Bool := ['-', ':', '_'].contains c || Text.isAlphanumeric c

/-- Reads the threshold after an equality sign, where nothing stands for the greatest one. -/
def threshold? (text : List Char) : Option Threshold :=
  if text.isEmpty then some (.upTo .trace) else Threshold.parse? text

/-- Reads what may follow the brackets: nothing, or an equality sign and a threshold, to which the
`surplus` after the last cell belongs. -/
def ending? (cells : List Cell) (surplus : List Char) : Option Threshold :=
  match cells with
  | [] => some (.upTo .trace)
  | mark :: rest =>
      if mark.seen = '=' then threshold? (Cell.text rest ++ surplus) else none

/-- Whether a text tells what a value has to look like: it is a pattern that can be
used, as the words for truth are, or a number. -/
def isValueTest (text : List Char) : Bool :=
  (Pattern.parse? text).any (·.isUsable) || (Decimal.uint64? text).isSome ||
    (Decimal.int64? text).isSome || (Decimal.float? (String.ofList text)).isSome

/-- Reads a test of a field: its name, and after an equality sign its value. -/
def fieldTest? (text : List Char) : Option FieldTest :=
  let (name, rest) := text.span (· ≠ '=')
  let name := String.ofList name
  match rest with
  | [] => some { name }
  | _ :: rest =>
      let value := rest.takeWhile (· ≠ '=')
      if isValueTest value then some { name, value := some (String.ofList value) } else none

/-- Reads what follows an opening bracket. -/
def scope? (target : Option String) (cells : List Cell) (surplus : List Char) :
    Option Directive :=
  let (span, rest) := Cell.upTo [']', '\x7b'] cells
  let span := String.ofList (Cell.text span)
  match rest with
  | [] => none
  | mark :: rest =>
      if mark.seen = ']' then
        (ending? rest surplus).map fun threshold => { target, span := some span, threshold }
      else
        let (field, rest) := Cell.upTo ['\x7d'] rest
        match rest with
        | _ :: closing :: rest =>
            if field.isEmpty ∨ closing.seen ≠ ']' then none
            else do
              let test ← fieldTest? (Cell.text field)
              let threshold ← ending? rest surplus
              return { target
                       span := if span.isEmpty then none else some span
                       fields := [test]
                       threshold }
        | _ => none

/-- The directive that consists of one word: a threshold, or else a target. -/
def ofWord (word : List Char) : Directive :=
  match Threshold.parse? word with
  | some threshold => { threshold }
  | none => { target := some (String.ofList word) }

/-- Reads a directive. -/
def parse? (text : List Char) : Option Directive :=
  let bare := Text.trimBlanks text
  let cells := bare.zipWith Cell.mk text
  let surplus := text.drop bare.length
  match cells with
  | [] => none
  | first :: rest =>
      if first.seen = '[' then scope? none rest surplus
      else if mayBegin first.seen then
        let (word, rest) := Cell.upTo ['=', '['] cells
        let word := Cell.text word
        match rest with
        | [] => some (ofWord (word ++ surplus))
        | mark :: rest =>
            let target := some (String.ofList word)
            if mark.seen = '=' then
              (threshold? (Cell.text rest ++ surplus)).map fun threshold => { target, threshold }
            else scope? target rest surplus
      else none

end Directive

end LogRelay
