import LogRelay.Logging.Directory
import LogRelay.Logging.Filter

/-!
# The log of a process

A process has at most one logger, and once it has one it keeps it.  Setting up the log
reads the filter, opens the file and installs the logger, in this order, and ends at
the first of these that fails.  Opening a file empties it.

A logger goes on at the place where it stands.  If its file has been emptied since it last wrote,
null characters fill the file up to this place.
-/

namespace LogRelay

namespace LogConfig

/-- The level beyond which nothing is written. -/
def greatestLevel (config : LogConfig) : Level :=
  (Level.parse? config.level.toList).getD .info

/-- The text of the directives, of which the first one is the level for all targets that the
others do not mention. -/
def filterText (config : LogConfig) : String :=
  match config.directives with
  | none => config.greatestLevel.name
  | some directives => config.greatestLevel.name ++ "," ++ directives

/-- The directives. -/
def filter? (config : LogConfig) : Option LogFilter := LogFilter.parse? config.filterText

end LogConfig

/-- Why the log could not be set up. -/
inductive LogSetupError where
  | invalidDirectives (directives : String)
  /-- The log goes to a file, and there is none. -/
  | noFile
  /-- The file cannot be opened. -/
  | unusableFile (path : String)
  | alreadyInstalled
deriving DecidableEq, Inhabited

/-- The message of an error. -/
def LogSetupError.message : LogSetupError → String
  | invalidDirectives directives => "Invalid log directives '" ++ directives ++ "'"
  | noFile => "Log output is 'file' but 'file_path' is not specified"
  | unusableFile path => "Failed to create log file '" ++ path ++ "'"
  | alreadyInstalled => "a global default trace dispatcher has already been set"

/-- Where entries go. -/
inductive LogSink where
  /-- To the standard output. -/
  | console
  | file (name : String)
deriving DecidableEq, Inhabited

/-- Writes events. -/
structure Logger where
  filter : LogFilter
  /-- The level beyond which nothing is written, whatever the directives say. -/
  greatestLevel : Level
  format : LogFormat
  sink : LogSink
deriving DecidableEq, Inhabited

/-- Whether an event is written. -/
def Logger.writes (logger : Logger) (event : LogEvent) : Bool :=
  logger.filter.admits event && (Threshold.upTo logger.greatestLevel).admits event.level

/-- What stands in a file. -/
structure LogFile where
  /-- The entries that have been replaced by null characters. -/
  blanks : List LogEntry := []
  /-- The entries after them. -/
  entries : List LogEntry := []
deriving DecidableEq, Inhabited

/-- A logger that has written some entries before adds one. -/
def LogFile.add (file : LogFile) (before : List LogEntry) (entry : LogEntry) : LogFile where
  blanks := if file.entries = [] then before else file.blanks
  entries := file.entries ++ [entry]

/-- What a process has written, and how it writes on. -/
structure Logbook where
  /-- Where files can be created. -/
  directory : Directory
  /-- The files that have been created, under their names. -/
  files : List (String × LogFile) := []
  /-- The entries on the standard output. -/
  console : List LogEntry := []
  logger : Option Logger := none
  /-- The entries that the logger has written. -/
  logged : List LogEntry := []
deriving Inhabited

namespace Logbook

/-- Opens a file, which is empty then. -/
def create (book : Logbook) (name : String) : Logbook :=
  { book with files := (name, {}) :: book.files.filter (·.1 ≠ name) }

/-- Installs a logger, unless there is one. -/
def install (book : Logbook) (logger : Logger) : Except LogSetupError Unit × Logbook :=
  match book.logger with
  | some _ => (.error .alreadyInstalled, book)
  | none => (.ok (), { book with logger := some logger, logged := [] })

/-- Sets the log up. -/
def setUp (book : Logbook) (config : LogConfig) : Except LogSetupError Unit × Logbook :=
  match config.filter? with
  | none => (.error (.invalidDirectives config.filterText), book)
  | some filter =>
      let logger := Logger.mk filter config.greatestLevel config.format
      match config.output, config.filePath with
      | .stdout, _ => book.install (logger .console)
      | .file, none => (.error .noFile, book)
      | .file, some path =>
          match book.directory.locate? path with
          | some name => (book.create name).install (logger (.file name))
          | none => (.error (.unusableFile path), book)

/-- Whether an event would be written. -/
def writes (book : Logbook) (event : LogEvent) : Bool := book.logger.any (·.writes event)

/-- What stands in a file, if it is there. -/
def contents? (book : Logbook) (name : String) : Option LogFile := book.files.lookup name

/-- The entries in the file that a path leads to. -/
def entries (book : Logbook) (path : String) : List LogEntry :=
  ((book.directory.locate? path).bind book.contents?).elim [] LogFile.entries

/-- The logger adds an entry. -/
def append (book : Logbook) (entry : LogEntry) : LogSink → Logbook
  | .console =>
      { book with console := book.console ++ [entry], logged := book.logged ++ [entry] }
  | .file name =>
      { book with
        files := book.files.map fun (other, file) =>
          (other, if other = name then file.add book.logged entry else file)
        logged := book.logged ++ [entry] }

/-- Reports an event. -/
def report (book : Logbook) (event : LogEvent) : Logbook :=
  match book.logger with
  | none => book
  | some logger =>
      if logger.writes event then book.append ⟨logger.format, event⟩ logger.sink else book

end Logbook

end LogRelay
