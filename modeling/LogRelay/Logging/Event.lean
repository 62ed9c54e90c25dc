import LogRelay.Json.Writer
import LogRelay.Logging.Level
import LogRelay.Settings.Node

/-!
# Events

What a part of the program reports about itself, and how it looks in the log.
-/

namespace LogRelay

/-- Something that a part of the program reports. -/
structure LogEvent where
  /-- The part of the program. -/
  target : String
  level : Level
  message : String
  /-- Numbers that go with it, each under its name. -/
  numbers : List (String × Nat) := []
deriving DecidableEq, Inhabited

namespace LogEvent

/-- The names of the fields of an event; its message is one of them. -/
def fieldNames (event : LogEvent) : List String := "message" :: event.numbers.map Prod.fst

/-- The event in one line of text. -/
def line (event : LogEvent) : String :=
  let label := event.level.label
  let margin := String.ofList (List.replicate (5 - label.length) ' ')
  let number := fun (name, value) => " " ++ name ++ "=" ++ toString (value : Nat)
  margin ++ label ++ " " ++ event.target ++ ": " ++ event.message ++
    String.join (event.numbers.map number)

/-- The event as a JSON object. -/
def toJson (event : LogEvent) : Json :=
  let number := fun (name, value) => (name, Json.number (.ofNat value))
  .object [("level", .string event.level.label),
    ("fields", .object (("message", .string event.message) :: event.numbers.map number)),
    ("target", .string event.target)]

end LogEvent

/-- An event in the log. -/
structure LogEntry where
  format : LogFormat
  event : LogEvent
deriving DecidableEq, Inhabited

/-- What is written for an event, apart from the time. -/
def LogEntry.toJson (entry : LogEntry) : Json :=
  match entry.format with
  | .json => entry.event.toJson
  | .plain => .string entry.event.line

end LogRelay
