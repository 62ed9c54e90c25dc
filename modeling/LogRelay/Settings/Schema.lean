import LogRelay.Json.Basic
import LogRelay.Settings.Node

/-!
# Reading settings

Settings are read in the same way from values of different kinds, which only have to
say how they can be taken: as a record with named fields, as a number, a text or one
of several names (`SettingNotation`).  A missing setting has its default, except that
a database that is described at all must have a place.
-/

namespace LogRelay

/-- How values of type `ν` can be taken. -/
structure SettingNotation (ν : Type) where
  /-- As a record with the given fields, some of which may have no value. -/
  record? (names : List String) (value : ν) : Option (List (Option ν))
  /-- As a number of 64 bits. -/
  count? (value : ν) : Option UInt64
  /-- As a number in binary floating point. -/
  factor? (value : ν) : Option Float
  /-- As a text. -/
  text? (value : ν) : Option String
  /-- As a name. -/
  choice? (value : ν) : Option String
  /-- Whether it stands for no value. -/
  isAbsent (value : ν) : Bool

namespace SettingNotation

variable {ν : Type} (kind : SettingNotation ν)

/-- A text that may be missing. -/
def optionalText? (value : ν) : Option (Option String) :=
  if kind.isAbsent value then some none else (kind.text? value).map some

/-- Reads how logs are fetched. -/
def backfill? (value : ν) : Option BackfillConfig := do
  let default : BackfillConfig := {}
  match ← kind.record? ["depth", "request-timeout-secs"] value with
  | [depth, requestTimeoutSecs] =>
      return {
        depth := ← Field.withDefault default.depth kind.count? depth
        requestTimeoutSecs :=
          ← Field.withDefault default.requestTimeoutSecs kind.count? requestTimeoutSecs }
  | _ => none

/-- Reads how the relay subscribes. -/
def subscription? (value : ν) : Option SubscriptionConfig := do
  let default : SubscriptionConfig := {}
  match ← kind.record? ["create-timeout-secs", "debounce-millis"] value with
  | [createTimeoutSecs, debounceMillis] =>
      return {
        createTimeoutSecs :=
          ← Field.withDefault default.createTimeoutSecs kind.count? createTimeoutSecs
        debounceMillis := ← Field.withDefault default.debounceMillis kind.count? debounceMillis }
  | _ => none

/-- Reads how delays grow. -/
def retry? (value : ν) : Option RetryConfig := do
  let default : RetryConfig := {}
  match ← kind.record? ["initial-backoff-millis", "max-backoff-millis", "multiplier"] value with
  | [initialMillis, maxMillis, multiplier] =>
      return {
        initialMillis := ← Field.withDefault default.initialMillis kind.count? initialMillis
        maxMillis := ← Field.withDefault default.maxMillis kind.count? maxMillis
        multiplier := ← Field.withDefault default.multiplier kind.factor? multiplier }
  | _ => none

/-- Reads how much is buffered. -/
def channels? (value : ν) : Option ChannelConfig := do
  let default : ChannelConfig := {}
  match ← kind.record? ["command-buffer", "log-buffer"] value with
  | [commandBuffer, logBuffer] =>
      return {
        commandBuffer := ← Field.withDefault default.commandBuffer kind.count? commandBuffer
        logBuffer := ← Field.withDefault default.logBuffer kind.count? logBuffer }
  | _ => none

/-- Reads the settings of a relay. -/
def relay? (value : ν) : Option RelayConfig := do
  match ← kind.record? ["backfill", "subscription", "retry", "channels"] value with
  | [backfill, subscription, retry, channels] =>
      return {
        backfill := ← Field.withDefault {} kind.backfill? backfill
        subscription := ← Field.withDefault {} kind.subscription? subscription
        retry := ← Field.withDefault {} kind.retry? retry
        channels := ← Field.withDefault {} kind.channels? channels }
  | _ => none

/-- Reads a format. -/
def format? (value : ν) : Option LogFormat := do
  match ← kind.choice? value with
  | "json" => some .json
  | "plain" => some .plain
  | _ => none

/-- Reads an output. -/
def output? (value : ν) : Option LogOutput := do
  match ← kind.choice? value with
  | "stdout" => some .stdout
  | "file" => some .file
  | _ => none

/-- Reads what is written to the log. -/
def log? (value : ν) : Option LogConfig := do
  let default : LogConfig := {}
  match ← kind.record? ["level", "directives", "format", "output", "file-path"] value with
  | [level, directives, format, output, filePath] =>
      return {
        level := ← Field.withDefault default.level kind.text? level
        directives := ← Field.withDefault default.directives kind.optionalText? directives
        format := ← Field.withDefault default.format kind.format? format
        output := ← Field.withDefault default.output kind.output? output
        filePath := ← Field.withDefault default.filePath kind.optionalText? filePath }
  | _ => none

/-- Reads where the markers are kept. -/
def store? (value : ν) : Option StoreConfig := do
  match ← kind.record? ["db-path"] value with
  | [dbPath] => return { dbPath := ← Field.required kind.text? dbPath }
  | _ => none

/-- Reads the settings of a node. -/
def node? (value : ν) : Option NodeConfig := do
  match ← kind.record? ["broadcaster", "store", "log"] value with
  | [broadcaster, store, log] =>
      return {
        broadcaster := ← Field.withDefault {} kind.relay? broadcaster
        store := ← Field.withDefault {} kind.store? store
        log := ← Field.withDefault {} kind.log? log }
  | _ => none

end SettingNotation

/-- The strict way in which settings are taken from JSON. -/
def Json.settings : SettingNotation Json where
  record? := Json.record?
  count? json := json.nat?.map UInt64.ofNat
  factor? := Json.float?
  text? := Json.text?
  choice?
    | .string name => some name
    | .object [(name, .null)] => some name
    | _ => none
  isAbsent
    | .null => true
    | _ => false

end LogRelay
