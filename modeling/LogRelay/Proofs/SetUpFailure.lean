import LogRelay.Proofs.Filtering
import LogRelay.Proofs.MarkerStores

/-!
# Setting up the log in vain

Setting up the log can fail in four ways.  In three of them nothing has happened: the directives are
no filter, there is no file to write to, or it cannot be opened.  The fourth is that there is a
logger already, which is found out last, when the file was opened (`Logbook.opens?`), and opening a
file empties it.  So an attempt that fails may cost the entries of one file, be it the one that the
logger writes to.  Nothing else is lost, and the logger goes on, though with null characters in the
place of what it has lost (`Logbook.IsAligned`).
-/

namespace LogRelay

namespace Logbook

variable {book : Logbook} {config : LogConfig} {logger : Logger} {error : LogSetupError}

/-- The file that is opened when the log is set up. -/
def opens? (book : Logbook) (config : LogConfig) : Option String :=
  match config.filter?, config.output, config.filePath with
  | some _, .file, some path => book.directory.locate? path
  | _, _, _ => none

/-- The book after a file was opened, if there is one to open. -/
def openFile (book : Logbook) : Option String → Logbook
  | none => book
  | some name => book.create name

theorem logger_openFile (book : Logbook) (name? : Option String) :
    (book.openFile name?).logger = book.logger := by
  cases name? with
  | none | some => rfl

theorem console_openFile (book : Logbook) (name? : Option String) :
    (book.openFile name?).console = book.console := by
  cases name? with
  | none | some => rfl

theorem logged_openFile (book : Logbook) (name? : Option String) :
    (book.openFile name?).logged = book.logged := by
  cases name? with
  | none | some => rfl

theorem directory_openFile (book : Logbook) (name? : Option String) :
    (book.openFile name?).directory = book.directory := by
  cases name? with
  | none | some => rfl

/-! ## How setting up goes -/

/-- Setting up fails before anything has happened, or it opens a file, if there is one, and comes to
installing a logger. -/
theorem setUp_cases (book : Logbook) (config : LogConfig) :
    (∃ error, error ≠ .alreadyInstalled ∧ book.opens? config = none ∧
        book.setUp config = (.error error, book)) ∨
      ∃ logger, book.setUp config = (book.openFile (book.opens? config)).install logger := by
  unfold setUp opens?
  cases hfilter : config.filter? with
  | none => exact .inl ⟨.invalidDirectives config.filterText, nofun, rfl, rfl⟩
  | some filter =>
      cases houtput : config.output with
      | stdout => exact .inr ⟨_, rfl⟩
      | file =>
          cases hpath : config.filePath with
          | none => exact .inl ⟨.noFile, nofun, rfl, rfl⟩
          | some path =>
              dsimp only
              cases hname : book.directory.locate? path with
              | none => exact .inl ⟨.unusableFile path, nofun, rfl, rfl⟩
              | some name =>
                  exact .inr ⟨⟨filter, config.greatestLevel, config.format, .file name⟩, rfl⟩

theorem install_of_logger (h : book.logger = some logger) (other : Logger) :
    book.install other = (.error .alreadyInstalled, book) := by
  simp only [install, h]

/-- An attempt that fails has opened a file at most, and only if there was a logger. -/
theorem setUp_of_error (h : (book.setUp config).1 = .error error) :
    (book.setUp config).2 = book.openFile (book.opens? config) ∧
      (book.opens? config ≠ none → error = .alreadyInstalled) := by
  rcases book.setUp_cases config with ⟨_, -, hopens, heq⟩ | ⟨logger, heq⟩
  · rw [heq, hopens]
    exact ⟨rfl, absurd rfl⟩
  · have hlogger := book.logger_openFile (book.opens? config)
    rw [heq] at h ⊢
    cases hinstalled : book.logger with
    | none =>
        simp only [install, hlogger, hinstalled] at h
        cases h
    | some installed =>
        rw [install_of_logger (hlogger.trans hinstalled)] at h ⊢
        cases h
        exact ⟨rfl, fun _ => rfl⟩

/-- Where there is a logger, setting up does not succeed. -/
theorem setUp_of_logger (h : book.logger = some logger) (config : LogConfig) :
    (book.setUp config).2 = book.openFile (book.opens? config) := by
  rcases book.setUp_cases config with ⟨error, -, hopens, heq⟩ | ⟨other, heq⟩
  · rw [heq, hopens]
    rfl
  · rw [heq, install_of_logger ((book.logger_openFile _).trans h)]

/-! ## What opening a file costs -/

/-- Opening a file empties this one and no other. -/
theorem contents?_openFile (book : Logbook) (name? : Option String) (name : String) :
    (book.openFile name?).contents? name =
      if name? = some name then some {} else book.contents? name := by
  cases name? with
  | none => rfl
  | some opened =>
      unfold contents? openFile create
      by_cases hsame : name = opened
      · subst hsame
        rw [List.lookup_cons_self, if_pos rfl]
      · have hnot : ¬ some opened = some name := fun heq => hsame (Option.some.inj heq).symm
        rw [if_neg hnot, lookup_cons_of_ne hsame]
        exact lookup_filter_ne hsame book.files

/-- All files are as before if and only if the one that is opened was there and was empty. -/
theorem contents?_openFile_eq_iff (book : Logbook) (name? : Option String) :
    (∀ name, (book.openFile name?).contents? name = book.contents? name) ↔
      ∀ name, name? = some name → book.contents? name = some {} := by
  constructor
  · intro h name hname
    rw [← h name, contents?_openFile, if_pos hname]
  · intro h name
    rw [contents?_openFile]
    split
    next hname => exact (h name hname).symm
    next => rfl

theorem written_openFile (book : Logbook) (name? : Option String) (sink : LogSink) :
    (book.openFile name?).written sink =
      if name?.map .file = some sink then [] else book.written sink := by
  cases sink with
  | console =>
      cases name? with
      | none | some => rfl
  | file name =>
      have hcontents := book.contents?_openFile name? name
      change (((book.openFile name?).contents? name).getD {}).entries = _
      rw [hcontents]
      by_cases hsame : name? = some name
      · simp [hsame]
      · have hnot : ¬ name?.map LogSink.file = some (.file name) := by
          cases name? with
          | none => exact nofun
          | some opened => simpa using hsame
        rw [if_neg hsame, if_neg hnot]
        rfl

theorem directory_append (book : Logbook) (entry : LogEntry) (sink : LogSink) :
    (book.append entry sink).directory = book.directory := by
  cases sink with
  | console | file => rfl

/-- Whatever happens, files can be opened where they could be before. -/
theorem opens?_perform (book : Logbook) (move : LogMove) (config : LogConfig) :
    (book.perform move).opens? config = book.opens? config := by
  have hdirectory : (book.perform move).directory = book.directory := by
    cases move with
    | report event =>
        change (book.report event).directory = book.directory
        unfold report
        cases book.logger with
        | none => rfl
        | some logger =>
            dsimp only
            split
            next => exact directory_append ..
            next => rfl
    | setUp other =>
        change (book.setUp other).2.directory = book.directory
        rcases book.setUp_cases other with ⟨_, -, -, heq⟩ | ⟨logger, heq⟩
        · rw [heq]
        · rw [heq]
          unfold install
          split
          all_goals exact directory_openFile ..
  unfold opens?
  rw [hdirectory]

end Logbook

/-! ## The entries of a logger -/

/-- What becomes of the entries of a logger when something happens to the log. -/
def Logger.keep (logger : Logger) (book : Logbook) (entries : List LogEntry) :
    LogMove → List LogEntry
  | .report event => if logger.writes event then entries ++ [⟨logger.format, event⟩] else entries
  | .setUp config => if (book.opens? config).map .file = some logger.sink then [] else entries

theorem Logger.keep_perform (logger : Logger) (book : Logbook) (move : LogMove) :
    logger.keep (book.perform move) = logger.keep book := by
  funext entries later
  cases later with
  | report => rfl
  | setUp config =>
      unfold Logger.keep
      simp only [Logbook.opens?_perform]

namespace Logbook

variable {book : Logbook} {config : LogConfig} {logger : Logger} {error : LogSetupError}

theorem written_perform (h : book.Uses logger) (move : LogMove) :
    (book.perform move).written logger.sink =
      logger.keep book (book.written logger.sink) move := by
  cases move with
  | report event =>
      change (book.report event).written logger.sink = _
      rw [report_of_uses h]
      unfold Logger.keep
      dsimp only
      split
      next => exact written_append h.2 _
      next => rfl
  | setUp config =>
      change (book.setUp config).2.written logger.sink = _
      rw [setUp_of_logger h.1]
      exact written_openFile ..

/-- The logger writes on in every run, and loses its entries only where its file is opened. -/
theorem written_foldl_perform (h : book.Uses logger) (moves : List LogMove) :
    (moves.foldl perform book).written logger.sink =
      moves.foldl (logger.keep book) (book.written logger.sink) := by
  induction moves generalizing book with
  | nil => rfl
  | cons move moves ih =>
      rw [List.foldl_cons, List.foldl_cons, ih (h.perform move), logger.keep_perform,
        written_perform h move]

/-! ## What stands in the place of lost entries -/

/-- In the file of the logger, null characters stand in the place of just those of its entries that
are no longer there. -/
def IsAligned (book : Logbook) (logger : Logger) : Prop :=
  ∀ name file, logger.sink = .file name → book.contents? name = some file →
    file.entries ≠ [] → file.blanks ++ file.entries = book.logged

theorem IsAligned.openFile (h : book.IsAligned logger) (name? : Option String) :
    (book.openFile name?).IsAligned logger := by
  intro name file hsink hfile hentries
  rw [contents?_openFile] at hfile
  split at hfile
  · cases hfile
    exact absurd rfl hentries
  · rw [logged_openFile]
    exact h name file hsink hfile hentries

theorem IsAligned.append (h : book.IsAligned logger) (hhas : book.Has logger.sink)
    (entry : LogEntry) : (book.append entry logger.sink).IsAligned logger := by
  intro name file hsink hfile _
  rw [hsink] at hhas hfile ⊢
  rw [contents?_append hhas] at hfile
  cases hfile
  cases hold : book.contents? name with
  | none => rfl
  | some old =>
      rw [Option.getD_some, LogFile.add]
      by_cases hentries : old.entries = []
      · rw [if_pos hentries, hentries]
        rfl
      · rw [if_neg hentries, ← List.append_assoc, h name old hsink hold hentries]
        rfl

theorem IsAligned.perform (h : book.IsAligned logger) (huses : book.Uses logger)
    (move : LogMove) : (book.perform move).IsAligned logger := by
  cases move with
  | report event =>
      change (book.report event).IsAligned logger
      rw [report_of_uses huses]
      split
      next => exact h.append huses.2 _
      next => exact h
  | setUp config =>
      change (book.setUp config).2.IsAligned logger
      rw [setUp_of_logger huses.1]
      exact h.openFile _

theorem IsAligned.foldl_perform (h : book.IsAligned logger) (huses : book.Uses logger)
    (moves : List LogMove) : (moves.foldl Logbook.perform book).IsAligned logger := by
  induction moves generalizing book with
  | nil => exact h
  | cons move moves ih => exact ih (h.perform huses move) (huses.perform move)

/-- A logger that has just been installed has lost nothing. -/
theorem isAligned_of_setUp (h : (book.setUp config).1 = .ok ())
    (huses : (book.setUp config).2.Uses logger) : (book.setUp config).2.IsAligned logger := by
  obtain ⟨filter, sink, hfilter, hsink, hlogger, -⟩ := uses_of_setUp h
  obtain rfl := Option.some.inj (huses.1.symm.trans hlogger)
  rintro name file (rfl : sink = .file name) hfile hentries
  have hopens : book.opens? config = some name := by
    unfold sink? at hsink
    unfold opens?
    cases houtput : config.output with
    | stdout => simp [houtput] at hsink
    | file =>
        cases hpath : config.filePath with
        | none => simp [houtput, hpath] at hsink
        | some path => simpa [houtput, hpath, hfilter] using hsink
  have hempty : (book.setUp config).2.contents? name = some {} := by
    rcases book.setUp_cases config with ⟨other, -, -, heq⟩ | ⟨other, heq⟩
    · rw [heq] at h
      cases h
    · rw [heq] at h ⊢
      rw [install_eq_ok h, hopens]
      exact (book.contents?_openFile (some name) name).trans (if_pos rfl)
  rw [hempty] at hfile
  cases hfile
  exact absurd rfl hentries

/-- However long a logger goes on after it was installed, null characters in its file stand only for
what it has lost. -/
theorem isAligned_foldl_perform (h : (book.setUp config).1 = .ok ())
    (huses : (book.setUp config).2.Uses logger) (moves : List LogMove) :
    (moves.foldl perform (book.setUp config).2).IsAligned logger :=
  (isAligned_of_setUp h huses).foldl_perform huses moves

/-- If setting up the log fails, then the logger and the standard output are as before, and at most
one file has changed: the one that was opened before the logger was found, which is empty now.  So
everything is as before exactly if no file was opened, or an empty one; and the logger, if there is
one, writes on as ever, but has lost the entries of its own file if this is the one, in whose place
there will be null characters. -/
theorem failing_setUp_empties_at_most (h : (book.setUp config).1 = .error error) :
    (book.setUp config).2.logger = book.logger ∧
    (book.setUp config).2.console = book.console ∧
    (∀ name, (book.setUp config).2.contents? name =
      if book.opens? config = some name then some {} else book.contents? name) ∧
    (book.opens? config ≠ none → error = .alreadyInstalled) ∧
    ((∀ name, (book.setUp config).2.contents? name = book.contents? name) ↔
      ∀ name, book.opens? config = some name → book.contents? name = some {}) ∧
    (∀ logger, book.Uses logger → ∀ moves : List LogMove,
      (moves.foldl perform (book.setUp config).2).written logger.sink =
        (.setUp config :: moves).foldl (logger.keep book) (book.written logger.sink) ∧
      (book.IsAligned logger →
        (moves.foldl perform (book.setUp config).2).IsAligned logger)) := by
  obtain ⟨hafter, herror⟩ := setUp_of_error h
  refine ⟨?_, ?_, fun name => ?_, herror, ?_, fun logger huses moves => ⟨?_, fun haligned => ?_⟩⟩
  · rw [hafter, logger_openFile]
  · rw [hafter, console_openFile]
  · rw [hafter, contents?_openFile]
  · rw [hafter]
    exact contents?_openFile_eq_iff ..
  · exact written_foldl_perform huses (.setUp config :: moves)
  · exact haligned.foldl_perform huses (.setUp config :: moves)

end Logbook

namespace Sample

/-- A log that goes to a file. -/
def fileConfig : LogConfig := { output := .file, filePath := some "/var/log/node.log" }

/-- The log is set up, and something is reported. -/
def writtenBook : Logbook :=
  ((Logbook.setUp { directory := "/var/log" } fileConfig).2).report
    { target := "node", level := .info, message := "started" }

end Sample

namespace Logbook

/-- An entry of the logger is lost. -/
theorem sample_failing_setUp_empties :
    (Sample.writtenBook.setUp Sample.fileConfig).1 = .error .alreadyInstalled ∧
      (Sample.writtenBook.setUp Sample.fileConfig).2.contents? "/var/log/node.log" = some {} := by
  have hfails : (Sample.writtenBook.setUp Sample.fileConfig).1 = .error .alreadyInstalled := by
    decide +kernel
  have hopens : Sample.writtenBook.opens? Sample.fileConfig = some "/var/log/node.log" := by
    decide +kernel
  obtain ⟨-, -, hcontents, -⟩ := failing_setUp_empties_at_most hfails
  exact ⟨hfails, (hcontents _).trans (if_pos hopens)⟩

/-- Not every attempt to set up the log that fails leaves the files as they are. -/
theorem failing_setUp_is_not_harmless :
    ¬ ∀ (book : Logbook) (config : LogConfig) (error : LogSetupError),
      (book.setUp config).1 = .error error →
        ∀ name, (book.setUp config).2.contents? name = book.contents? name := by
  intro hharmless
  have hsame := hharmless Sample.writtenBook Sample.fileConfig .alreadyInstalled
    (by decide +kernel) "/var/log/node.log"
  have hlost : (Sample.writtenBook.setUp Sample.fileConfig).2.contents? "/var/log/node.log" ≠
      Sample.writtenBook.contents? "/var/log/node.log" := by
    decide +kernel
  exact hlost hsame

end Logbook

end LogRelay
