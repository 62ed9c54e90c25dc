import LogRelay.Decimal.Digits

/-!
# Levels of events

Events are ranked from errors to traces, and a threshold lets events up to some level
pass, or none at all.
-/

namespace LogRelay

/-- How important an event is. -/
inductive Level where
  | error
  | warn
  | info
  | debug
  | trace
deriving DecidableEq, Inhabited

namespace Level

/-- The levels, from the most important one on. -/
def all : List Level := [error, warn, info, debug, trace]

/-- The number of a level; errors have the number one. -/
def number : Level → Nat
  | error => 1
  | warn => 2
  | info => 3
  | debug => 4
  | trace => 5

/-- The name of a level in settings. -/
def name : Level → String
  | error => "error"
  | warn => "warn"
  | info => "info"
  | debug => "debug"
  | trace => "trace"

/-- The name of a level in the log. -/
def label : Level → String
  | error => "ERROR"
  | warn => "WARN"
  | info => "INFO"
  | debug => "DEBUG"
  | trace => "TRACE"

/-- The level with a number. -/
def ofNumber? (number : Nat) : Option Level := all.find? (·.number = number)

/-- The level with a name, in capital or small letters. -/
def ofName? (name : List Char) : Option Level :=
  all.find? fun level => level.name.toList = name.map Char.toLower

/-- Reads a level: its number or its name. -/
def parse? (text : List Char) : Option Level :=
  ((Decimal.unsigned? text).bind ofNumber?).or (ofName? text)

end Level

/-- Up to which level events pass. -/
inductive Threshold where
  | off
  /-- Events that are at least as important as the level pass. -/
  | upTo (level : Level)
deriving DecidableEq, Inhabited

namespace Threshold

/-- Whether events of a level pass. -/
def admits : Threshold → Level → Bool
  | off, _ => false
  | upTo greatest, level => decide (level.number ≤ greatest.number)

/-- Reads a threshold: a level, or zero or `off`. -/
def parse? (text : List Char) : Option Threshold :=
  if Decimal.unsigned? text = some 0 ∨ text.map Char.toLower = "off".toList then some off
  else (Level.parse? text).map upTo

end Threshold

end LogRelay
