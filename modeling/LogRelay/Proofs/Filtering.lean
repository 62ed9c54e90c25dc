import LogRelay.Proofs.DirectiveText
import Mathlib.Data.List.Infix

/-!
# What the rules of a log decide

Of the rules whose targets begin the target of an event the one with the longest target decides,
and of those with the same target the last one (`TargetRule.IsDecisive`); where there is no such
rule, the level of the settings does.  The filter decides as the rules do (`LogFilter.admits_iff`).

What is written goes through a second gate, though, which knows nothing of the rules: the writer
lets nothing pass beyond the level of the settings.  So a rule can make a target more silent, but
not more talkative (`Logbook.isWritten_iff_asks_and_within`, `Logbook.detail_is_not_written`).
-/

namespace LogRelay

/-! ## The rule that decides -/

namespace TargetRule

variable {rules : List TargetRule} {rule other : TargetRule} {target : String}

/-- The target of an event begins with the target of the rule. -/
def Matches (rule : TargetRule) (target : String) : Prop := rule.target.toList <+: target.toList

/-- Of the rules that match, this one has the longest target, and no later one has as long a
target. -/
def IsDecisive (rule : TargetRule) (rules : List TargetRule) (target : String) : Prop :=
  ∃ before after, rules = before ++ rule :: after ∧ rule.Matches target ∧
    (∀ earlier ∈ before, earlier.Matches target →
      earlier.target.length ≤ rule.target.length) ∧
    ∀ later ∈ after, later.Matches target → later.target.length < rule.target.length

theorem IsDecisive.mem (h : rule.IsDecisive rules target) : rule ∈ rules := by
  obtain ⟨before, after, rfl, -⟩ := h
  simp

theorem IsDecisive.matches (h : rule.IsDecisive rules target) : rule.Matches target := by
  obtain ⟨before, after, -, hmatches, -⟩ := h
  exact hmatches

theorem IsDecisive.length_le (h : rule.IsDecisive rules target) (hmem : other ∈ rules)
    (hother : other.Matches target) : other.target.length ≤ rule.target.length := by
  obtain ⟨before, after, rfl, -, hbefore, hafter⟩ := h
  simp only [List.mem_append, List.mem_cons] at hmem
  rcases hmem with hmem | rfl | hmem
  · exact hbefore other hmem hother
  · exact le_rfl
  · exact (hafter other hmem hother).le

/-- A rule still decides after one that does not match or has a shorter target. -/
theorem IsDecisive.concat (h : rule.IsDecisive rules target)
    (hlast : other.Matches target → other.target.length < rule.target.length) :
    rule.IsDecisive (rules ++ [other]) target := by
  obtain ⟨before, after, rfl, hmatches, hbefore, hafter⟩ := h
  refine ⟨before, after ++ [other], by simp, hmatches, hbefore, ?_⟩
  intro later hlater hmatchesLater
  rcases List.mem_append.mp hlater with hlater | hlater
  · exact hafter later hlater hmatchesLater
  · obtain rfl := List.mem_singleton.mp hlater
    exact hlast hmatchesLater

/-- A last rule decides if the others that match have no longer targets. -/
theorem isDecisive_concat_self (hmatches : rule.Matches target)
    (h : ∀ earlier ∈ rules, earlier.Matches target →
      earlier.target.length ≤ rule.target.length) :
    rule.IsDecisive (rules ++ [rule]) target :=
  ⟨rules, [], rfl, hmatches, h, by simp⟩

/-- At most one rule decides. -/
theorem IsDecisive.unique (hrule : rule.IsDecisive rules target)
    (hother : other.IsDecisive rules target) : rule = other := by
  obtain ⟨before, after, hsplit, hmatches, hbefore, hafter⟩ := hrule
  obtain ⟨before', after', rfl, hmatches', hbefore', hafter'⟩ := hother
  rcases List.append_eq_append_iff.mp hsplit with ⟨between, h, hrest⟩ | ⟨between, h, hrest⟩
  · cases between with
    | nil =>
      simp only [List.nil_append, List.cons.injEq] at hrest
      exact hrest.1.symm
    | cons head between =>
      -- the second rule stands in front of the first one
      simp only [List.cons_append, List.cons.injEq] at hrest
      obtain ⟨rfl, hrest⟩ := hrest
      have hle := hbefore other (by simp [h]) hmatches'
      have hlt := hafter' rule (by simp [hrest]) hmatches
      omega
  · cases between with
    | nil =>
      simp only [List.nil_append, List.cons.injEq] at hrest
      exact hrest.1
    | cons head between =>
      simp only [List.cons_append, List.cons.injEq] at hrest
      obtain ⟨rfl, hrest⟩ := hrest
      have hle := hbefore' rule (by simp [h]) hmatches
      have hlt := hafter other (by simp [hrest]) hmatches'
      omega

end TargetRule

namespace LogConfig

/-- The rules let events of a target pass up to a threshold. -/
inductive Decides (config : LogConfig) (rules : List TargetRule) (target : String) :
    Threshold → Prop where
  | byRule (rule : TargetRule) (h : rule.IsDecisive rules target) :
      Decides config rules target rule.threshold
  | byLevel (h : ∀ rule ∈ rules, ¬rule.Matches target) :
      Decides config rules target (.upTo config.greatestLevel)

/-- The rules ask for an event to be written. -/
def Asks (config : LogConfig) (rules : List TargetRule) (event : LogEvent) : Prop :=
  ∃ threshold, config.Decides rules event.target threshold ∧ threshold.admits event.level

variable {config : LogConfig} {rules : List TargetRule} {target : String}
  {threshold other : Threshold}

theorem Decides.unique (h : config.Decides rules target threshold)
    (hother : config.Decides rules target other) : threshold = other := by
  cases h with
  | byRule rule h =>
    cases hother with
    | byRule rule' h' => rw [h.unique h']
    | byLevel hnone => exact absurd h.matches (hnone rule h.mem)
  | byLevel hnone =>
    cases hother with
    | byRule rule h => exact absurd h.matches (hnone rule h.mem)
    | byLevel => rfl

end LogConfig

/-! ## The filter -/

namespace TargetRule

theorem concerns_directive (rule : TargetRule) (event : LogEvent) :
    rule.directive.concerns event ↔ rule.Matches event.target := by
  simp [directive, Directive.concerns, Matches]

theorem givesWay_directive (rule other : TargetRule) :
    rule.directive.givesWay other.directive ↔ rule.target.length ≤ other.target.length := by
  change (if rule.target.length + 1 ≠ other.target.length + 1 then
    decide (rule.target.length + 1 < other.target.length + 1) else true) = true ↔ _
  by_cases h : rule.target.length = other.target.length
  · simp [h]
  · rw [if_pos (by omega), decide_eq_true_eq]
    omega

theorem givesWay_level (rule : TargetRule) (threshold : Threshold) :
    Directive.givesWay { threshold } rule.directive = true := by
  simp [Directive.givesWay, directive, Directive.reach]

end TargetRule

namespace LogFilter

/-- What is left of the level for all targets and of rules. -/
theorem foldl_moreSpecific (threshold : Threshold) (rules : List TargetRule) (event : LogEvent) :
    ∃ found, ((rules.map TargetRule.directive).filter (·.concerns event)).foldl moreSpecific
        (some { threshold }) = some found ∧
      ((∃ rule : TargetRule, rule.IsDecisive rules event.target ∧ found = rule.directive) ∨
        (∀ rule ∈ rules, ¬rule.Matches event.target) ∧ found = { threshold }) := by
  induction rules using List.reverseRecOn with
  | nil => exact ⟨{ threshold }, rfl, .inr ⟨by simp, rfl⟩⟩
  | append_singleton rules last ih =>
    obtain ⟨found, hfound, hcases⟩ := ih
    rw [List.map_append, List.filter_append, List.foldl_append, hfound, List.map_singleton]
    have hconcerns := last.concerns_directive event
    by_cases hlast : last.Matches event.target
    · rw [List.filter_cons, if_pos (hconcerns.mpr hlast), List.filter_nil, List.foldl_cons,
        List.foldl_nil, moreSpecific]
      rcases hcases with ⟨rule, hrule, rfl⟩ | ⟨hnone, rfl⟩
      · have hgives := TargetRule.givesWay_directive rule last
        by_cases hle : rule.target.length ≤ last.target.length
        · refine ⟨last.directive, if_pos (hgives.mpr hle), .inl ⟨last, ?_, rfl⟩⟩
          refine TargetRule.isDecisive_concat_self hlast ?_
          intro earlier hmem hearlier
          exact (hrule.length_le hmem hearlier).trans hle
        · refine ⟨rule.directive, if_neg (mt hgives.mp hle), .inl ⟨rule, ?_, rfl⟩⟩
          exact hrule.concat fun _ => by omega
      · refine ⟨last.directive, if_pos (last.givesWay_level threshold), .inl ⟨last, ?_, rfl⟩⟩
        refine TargetRule.isDecisive_concat_self hlast ?_
        intro earlier hmem hearlier
        exact absurd hearlier (hnone earlier hmem)
    · rw [List.filter_cons, if_neg (mt hconcerns.mp hlast), List.filter_nil]
      refine ⟨found, rfl, ?_⟩
      rcases hcases with ⟨rule, hrule, rfl⟩ | ⟨hnone, rfl⟩
      · exact .inl ⟨rule, hrule.concat fun h => absurd h hlast, rfl⟩
      · refine .inr ⟨?_, rfl⟩
        intro rule hrule
        rcases List.mem_append.mp hrule with hrule | hrule
        · exact hnone rule hrule
        · rwa [List.mem_singleton.mp hrule]

end LogFilter

namespace LogConfig

variable {config : LogConfig} {rules : List TargetRule}

/-- The filter admits what the rules ask for. -/
theorem admits_iff_asks (h : config.Lists rules) {filter : LogFilter}
    (hfilter : config.filter? = some filter) (event : LogEvent) :
    filter.admits event ↔ config.Asks rules event := by
  rw [filter?_of_lists h, Option.some.injEq] at hfilter
  subst hfilter
  obtain ⟨found, hfound, hcases⟩ := LogFilter.foldl_moreSpecific
    (.upTo config.greatestLevel) rules event
  have hdecides : config.Decides rules event.target found.threshold := by
    rcases hcases with ⟨rule, hrule, rfl⟩ | ⟨hnone, rfl⟩
    · exact .byRule rule hrule
    · exact .byLevel hnone
  have hconcerns : Directive.concerns { threshold := .upTo config.greatestLevel } event := rfl
  have hdecisive : LogFilter.decisive? ⟨{ threshold := .upTo config.greatestLevel } ::
      rules.map TargetRule.directive⟩ event = some found := by
    rw [LogFilter.decisive?, List.filter_cons, if_pos hconcerns, List.foldl_cons]
    exact hfound
  rw [LogFilter.admits, hdecisive, Option.any_some]
  constructor
  · intro hadmits
    exact ⟨found.threshold, hdecides, hadmits⟩
  · rintro ⟨threshold, hthreshold, hadmits⟩
    rwa [hdecides.unique hthreshold]

end LogConfig

/-! ## The log -/

/-- What happens to the log of a process: something is reported, or it is set up once more. -/
inductive LogMove where
  | report (event : LogEvent)
  | setUp (config : LogConfig)

namespace Logbook

variable {book : Logbook} {config : LogConfig} {rules : List TargetRule} {logger : Logger}

/-- The book after something has happened. -/
def perform (book : Logbook) : LogMove → Logbook
  | .report event => book.report event
  | .setUp config => (book.setUp config).2

/-- Where the settings let entries go. -/
def sink? (book : Logbook) (config : LogConfig) : Option LogSink :=
  match config.output with
  | .stdout => some .console
  | .file => (config.filePath.bind book.directory.locate?).map .file

/-- The entries that are at a sink. -/
def written (book : Logbook) : LogSink → List LogEntry
  | .console => book.console
  | .file name => ((book.contents? name).getD {}).entries

/-- A file is there; the standard output always is. -/
def Has (book : Logbook) : LogSink → Prop
  | .console => True
  | .file name => name ∈ book.files.map (·.1)

/-- The process writes with this logger. -/
def Uses (book : Logbook) (logger : Logger) : Prop :=
  book.logger = some logger ∧ book.Has logger.sink

theorem lookup_map_add (before : List LogEntry) (entry : LogEntry) (name : String)
    (files : List (String × LogFile)) (h : name ∈ files.map (·.1)) :
    (files.map fun (other, file) =>
      (other, if other = name then file.add before entry else file)).lookup name =
        some (((files.lookup name).getD {}).add before entry) := by
  induction files with
  | nil => simp at h
  | cons first rest ih =>
    obtain ⟨other, file⟩ := first
    by_cases hname : other = name
    · simp [hname]
    · have hrest : name ∈ rest.map (·.1) := by
        simpa [Ne.symm hname] using h
      have hne : (name == other) = false := beq_eq_false_iff_ne.mpr (Ne.symm hname)
      simp only [List.map_cons, List.lookup_cons, hne]
      exact ih hrest

theorem contents?_append {name : String} (h : book.Has (.file name)) (entry : LogEntry) :
    (book.append entry (.file name)).contents? name =
      some (((book.contents? name).getD {}).add book.logged entry) :=
  lookup_map_add book.logged entry name book.files h

theorem written_append {sink : LogSink} (h : book.Has sink) (entry : LogEntry) :
    (book.append entry sink).written sink = book.written sink ++ [entry] := by
  cases sink with
  | console => rfl
  | file name => simp only [written, contents?_append h, Option.getD_some, LogFile.add]

theorem has_append (book : Logbook) (entry : LogEntry) (sink other : LogSink) :
    (book.append entry sink).Has other ↔ book.Has other := by
  cases other with
  | console => rfl
  | file name =>
    cases sink with
    | console => rfl
    | file => simp [append, Has]

theorem logger_append (book : Logbook) (entry : LogEntry) (sink : LogSink) :
    (book.append entry sink).logger = book.logger := by
  cases sink <;> rfl

theorem has_create (book : Logbook) (name : String) {sink : LogSink} (h : book.Has sink) :
    (book.create name).Has sink := by
  cases sink with
  | console => trivial
  | file other =>
    by_cases hsame : other = name
    · simp [create, Has, hsame]
    · simp only [create, Has, List.map_cons, List.mem_cons, List.mem_map, List.mem_filter] at h ⊢
      obtain ⟨file, hfile, hname⟩ := h
      refine .inr ⟨file, ⟨hfile, ?_⟩, hname⟩
      simpa [hname] using hsame

/-- Once there is a logger, it stays. -/
theorem Uses.perform (h : book.Uses logger) (move : LogMove) :
    (book.perform move).Uses logger := by
  obtain ⟨hlogger, hhas⟩ := h
  cases move with
  | report event =>
    simp only [Logbook.perform, report, hlogger]
    split
    · exact ⟨by rw [logger_append, hlogger], (has_append ..).mpr hhas⟩
    · exact ⟨hlogger, hhas⟩
  | setUp config =>
    simp only [Logbook.perform, setUp]
    split
    · exact ⟨hlogger, hhas⟩
    · split
      · simp only [install, hlogger]
        exact ⟨hlogger, hhas⟩
      · exact ⟨hlogger, hhas⟩
      · split
        · next name _ =>
          have hcreated : (book.create name).logger = some logger := hlogger
          simp only [install, hcreated]
          exact ⟨hcreated, has_create book name hhas⟩
        · exact ⟨hlogger, hhas⟩

theorem Uses.foldl_perform (h : book.Uses logger) (moves : List LogMove) :
    (moves.foldl Logbook.perform book).Uses logger := by
  induction moves generalizing book with
  | nil => exact h
  | cons move rest ih => exact ih (h.perform move)

theorem install_eq_ok (h : (book.install logger).1 = .ok ()) :
    (book.install logger).2 = { book with logger := some logger, logged := [] } := by
  unfold install at h ⊢
  cases hlogger : book.logger with
  | none => rfl
  | some _ => simp [hlogger] at h

/-- What setting the log up installs. -/
theorem uses_of_setUp (h : (book.setUp config).1 = .ok ()) :
    ∃ filter sink, config.filter? = some filter ∧ book.sink? config = some sink ∧
      (book.setUp config).2.Uses ⟨filter, config.greatestLevel, config.format, sink⟩ := by
  unfold setUp at h ⊢
  cases hfilter : config.filter? with
  | none => simp [hfilter] at h
  | some filter =>
    simp only [hfilter] at h ⊢
    unfold sink?
    cases houtput : config.output with
    | stdout =>
      simp only [houtput] at h ⊢
      refine ⟨filter, .console, rfl, rfl, ?_⟩
      rw [install_eq_ok h]
      exact ⟨rfl, trivial⟩
    | file =>
      cases hpath : config.filePath with
      | none => simp [houtput, hpath] at h
      | some path =>
        cases hname : book.directory.locate? path with
        | none => simp [houtput, hpath, hname] at h
        | some name =>
          simp only [houtput, hpath, hname] at h ⊢
          refine ⟨filter, .file name, rfl, by simp [hname], ?_⟩
          rw [install_eq_ok h]
          exact ⟨rfl, by simp [create, Has]⟩

theorem report_of_uses (h : book.Uses logger) (event : LogEvent) :
    book.report event =
      if logger.writes event then book.append ⟨logger.format, event⟩ logger.sink else book := by
  rw [report, h.1]

/-- The writer lets nothing pass beyond the level of the settings.  So once the log is set up, and
whatever is reported and set up again after that, an event is written, as one entry in the format
and to the sink of the settings, exactly if the rules ask for it and it is within that level; and
otherwise nothing is.  The rules have the last word on an event exactly if they do not ask for it
beyond that level. -/
theorem isWritten_iff_asks_and_within (hrules : config.Lists rules)
    (hsetUp : (book.setUp config).1 = .ok ()) :
    ∃ sink, book.sink? config = some sink ∧ ∀ (moves : List LogMove) (event : LogEvent),
      let now := moves.foldl perform (book.setUp config).2
      let IsWritten := (now.report event).written sink = now.written sink ++ [⟨config.format, event⟩]
      let within := (Threshold.upTo config.greatestLevel).admits event.level
      (IsWritten ↔ config.Asks rules event ∧ within) ∧
        (¬IsWritten → now.report event = now) ∧
        ((IsWritten ↔ config.Asks rules event) ↔ (config.Asks rules event → within)) := by
  obtain ⟨filter, sink, hfilter, hsink, huses⟩ := uses_of_setUp hsetUp
  refine ⟨sink, hsink, ?_⟩
  intro moves event now IsWritten within
  have hnow : now.Uses ⟨filter, config.greatestLevel, config.format, sink⟩ :=
    huses.foldl_perform moves
  have hreport := report_of_uses hnow event
  have hwrites : Logger.writes ⟨filter, config.greatestLevel, config.format, sink⟩ event ↔
      config.Asks rules event ∧ within := by
    rw [Logger.writes, Bool.and_eq_true, LogConfig.admits_iff_asks hrules hfilter]
  have hiff : IsWritten ↔ config.Asks rules event ∧ within := by
    rw [← hwrites]
    constructor
    · intro hwritten
      by_contra hnot
      rw [if_neg hnot] at hreport
      have hlength := congrArg List.length hwritten
      simp [hreport] at hlength
    · intro h
      rw [if_pos h] at hreport
      change (now.report event).written sink = _
      rw [hreport]
      exact written_append hnow.2 _
  refine ⟨hiff, ?_, ?_⟩
  · intro hnot
    rw [hreport, if_neg]
    rwa [hwrites, ← hiff]
  · rw [hiff, and_iff_left_iff_imp]

/-- With the level `warn` and the rule `vrf_oracle_broadcaster=debug`, the rule asks for what this
target reports in detail, and it is not written. -/
theorem detail_is_not_written :
    let config : LogConfig :=
      { level := "warn", directives := some "vrf_oracle_broadcaster=debug" }
    let rule : TargetRule := ⟨"vrf_oracle_broadcaster", .upTo .debug⟩
    let book : Logbook := { directory := "/var/log" }
    let event : LogEvent :=
      { target := "vrf_oracle_broadcaster", level := .debug, message := "detail" }
    config.Lists [rule] ∧ (book.setUp config).1 = .ok () ∧ config.Asks [rule] event ∧
      (book.setUp config).2.report event = (book.setUp config).2 := by
  intro config rule book event
  have hlists : config.Lists [rule] := by
    have hclear : ∀ c ∈ "vrf_oracle_broadcaster".toList, c ≠ '=' ∧ c ≠ '[' := by simp
    have hrule : rule.IsWrittenAs "vrf_oracle_broadcaster=debug".toList :=
      ⟨⟨'v', "rf_oracle_broadcaster".toList, by decide +kernel, by decide +kernel⟩, hclear,
        "debug".toList, by decide +kernel, by decide +kernel⟩
    have hpieces : (LogFilter.pieces (config.directives.getD "").toList).filter (!·.isEmpty) =
        ["vrf_oracle_broadcaster=debug".toList] := by
      decide +kernel
    rw [LogConfig.Lists, hpieces]
    exact .cons hrule .nil
  have hsetUp : (book.setUp config).1 = .ok () := by decide +kernel
  have hasks : config.Asks [rule] event := by
    refine ⟨.upTo .debug, ?_, rfl⟩
    have hmatches : rule.Matches "vrf_oracle_broadcaster" := List.prefix_rfl
    exact .byRule rule ⟨[], [], rfl, hmatches, by simp, by simp⟩
  obtain ⟨sink, -, h⟩ := isWritten_iff_asks_and_within hlists hsetUp
  obtain ⟨hwritten, hunchanged, -⟩ := h [] event
  refine ⟨hlists, hsetUp, hasks, hunchanged ?_⟩
  intro h
  exact absurd (hwritten.mp h).2 (by decide +kernel)

end Logbook

end LogRelay
