import LogRelay.Settings.Relay

/-!
# Settings of a node

A node runs a relay, keeps its markers in a database and writes a log of its own.
-/

namespace LogRelay

/-- How events are written. -/
inductive LogFormat where
  /-- One JSON object for each event. -/
  | json
  /-- One line of text for each event. -/
  | plain
deriving DecidableEq, Inhabited

/-- Where events are written. -/
inductive LogOutput where
  | stdout
  | file
deriving DecidableEq, Inhabited

/-- What is written to the log of a node, and how. -/
structure LogConfig where
  /-- The name of the level beyond which nothing is written. -/
  level : String := "info"
  /-- Levels for parts of the program. -/
  directives : Option String := none
  format : LogFormat := .plain
  output : LogOutput := .stdout
  /-- The file, if events are written to one. -/
  filePath : Option String := none
deriving DecidableEq, Inhabited

/-- Where the markers are kept. -/
structure StoreConfig where
  /-- The place of the database. -/
  dbPath : String := "./vrf_oracle.db"
deriving DecidableEq, Inhabited

/-- The settings of a node. -/
structure NodeConfig where
  broadcaster : RelayConfig := {}
  store : StoreConfig := {}
  log : LogConfig := {}
deriving Inhabited

end LogRelay
