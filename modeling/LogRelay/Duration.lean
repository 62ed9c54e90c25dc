import LogRelay.Decimal.Digits

/-!
# Spans of time

A span has whole seconds and nanoseconds.  Its text uses the largest of the units
s, ms, µs and ns in which it is at least one, with a fraction as far as needed.
-/

namespace LogRelay

/-- A span of time. -/
structure Duration where
  /-- Whole seconds. -/
  seconds : Nat
  /-- Nanoseconds on top, below one thousand million. -/
  nanoseconds : Nat := 0
deriving DecidableEq, Inhabited

namespace Duration

/-- The nanoseconds in a second. -/
def nanosPerSecond : Nat := 1000000000

/-- A span of seconds and any number of nanoseconds, if 64 bits can count its seconds. -/
def ofParts? (seconds nanoseconds : Nat) : Option Duration :=
  let seconds := seconds + nanoseconds / nanosPerSecond
  if seconds ≤ Decimal.greatestUInt64 then some ⟨seconds, nanoseconds % nanosPerSecond⟩ else none

/-- A span of whole milliseconds. -/
def ofMillis (millis : Nat) : Duration := ⟨millis / 1000, millis % 1000 * 1000000⟩

/-- A span of whole seconds. -/
def ofSeconds (seconds : Nat) : Duration := ⟨seconds, 0⟩

/-- The whole milliseconds in the span. -/
def toMillis (span : Duration) : Nat := span.seconds * 1000 + span.nanoseconds / 1000000

/-- `whole` units and a fraction given in `places` digits, without superfluous zeros. -/
def textIn (whole fraction places : Nat) (unit : String) : String :=
  let digits := (Decimal.padded places fraction).toList
  let kept := (digits.reverse.dropWhile (· == '0')).reverse
  let point := if kept.isEmpty then [] else '.' :: kept
  toString whole ++ String.ofList point ++ unit

/-- The text of a span. -/
def text (span : Duration) : String :=
  if 0 < span.seconds then textIn span.seconds span.nanoseconds 9 "s"
  else if 1000000 ≤ span.nanoseconds then
    textIn (span.nanoseconds / 1000000) (span.nanoseconds % 1000000) 6 "ms"
  else if 1000 ≤ span.nanoseconds then
    textIn (span.nanoseconds / 1000) (span.nanoseconds % 1000) 3 "µs"
  else textIn span.nanoseconds 0 0 "ns"

end Duration

end LogRelay
