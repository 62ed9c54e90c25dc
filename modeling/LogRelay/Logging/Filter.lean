import LogRelay.Logging.Directive
import LogRelay.Logging.Event

/-!
# Filters

A filter is a list of directives.  Of the directives that concern an event the most
specific one decides: the one with the longest target, then the one that asks for more
fields, and of directives that ask for the same the last one.
-/

namespace LogRelay

namespace Directive

/-- Whether the directive concerns an event.  One that asks for a span or for the value of a field
concerns no event by itself. -/
def concerns (directive : Directive) (event : LogEvent) : Bool :=
  directive.span.isNone &&
    directive.target.all (·.toList.isPrefixOf event.target.toList) &&
    directive.fields.all fun field =>
      field.value.isNone && event.fieldNames.contains field.name

/-- How long the target is, where even an empty target counts. -/
def reach (directive : Directive) : Nat := directive.target.elim 0 (·.length + 1)

/-- The names of the fields that the directive asks for. -/
def fieldNames (directive : Directive) : List String := directive.fields.map (·.name)

/-- Whether the directive gives way to a later one that concerns the same event. -/
def givesWay (directive later : Directive) : Bool :=
  if directive.reach ≠ later.reach then decide (directive.reach < later.reach)
  else if directive.fields.length ≠ later.fields.length then
    decide (directive.fields.length < later.fields.length)
  else !decide (later.fieldNames < directive.fieldNames)

end Directive

/-- The directives that decide which events pass. -/
structure LogFilter where
  /-- The directives in the order in which they were written. -/
  directives : List Directive
deriving DecidableEq, Inhabited

namespace LogFilter

/-- The parts of a text between commas. -/
def pieces (text : List Char) : List (List Char) := text.splitOn ','

/-- Reads directives with commas between them.  Empty ones do not count. -/
def parse? (text : String) : Option LogFilter :=
  (((pieces text.toList).filter (!·.isEmpty)).mapM Directive.parse?).map LogFilter.mk

/-- The more specific one of a directive and one that was found before. -/
def moreSpecific (found : Option Directive) (later : Directive) : Option Directive :=
  match found with
  | none => some later
  | some directive => if directive.givesWay later then some later else some directive

/-- The most specific directive that concerns an event. -/
def decisive? (filter : LogFilter) (event : LogEvent) : Option Directive :=
  (filter.directives.filter (·.concerns event)).foldl moreSpecific none

/-- Whether an event passes. -/
def admits (filter : LogFilter) (event : LogEvent) : Bool :=
  (filter.decisive? event).any (·.threshold.admits event.level)

end LogFilter

end LogRelay
