import LogRelay.Proofs.AddedVariable

/-!
# Variables that a shell can export

A shell exports no variable with a hyphen in its name, so it can only name the variable for a
setting with underscores for hyphens.  This sets the settings whose names have no hyphens, and no
others: their names are not told from those of settings that do not exist, and such settings are
passed over.  The variable for the place of the database does harm where nothing else says where
that is, because it makes a section for the database that does not say it either
(`NodeConfig.load_with_shell_variable`).
-/

namespace LogRelay

/-- The settings whose names a shell can write. -/
theorem NodeSetting.shellPath_eq_path_iff (setting : NodeSetting) :
    setting.shellPath = setting.path ↔
      setting ∈ [depth, multiplier, level, directives, format, output] := by
  have hall : ∀ setting ∈ all, setting.shellPath = setting.path ↔
      setting ∈ [depth, multiplier, level, directives, format, output] := by
    decide +kernel
  exact hall setting setting.mem_all

namespace NodeConfig

variable {files : List SettingsFile} {name text : String} {environment : List (String × String)}
  {file env : Assignment} {setting : NodeSetting}

/-- An environment has one more variable, which is named for a setting as a shell can name it.  A
setting without a hyphen in its name has the value that is spelled in the variable, and all others
stay as they are without it.  For a setting with a hyphen the variable changes nothing, whatever it
holds, but for the place of the database where that is said nowhere else: then nothing can be
loaded. -/
theorem load_with_shell_variable (hfile : SettingsFile.Gives files name file)
    (henv : Environment.Adds environment setting.shellPath text env) (path : String) :
    ∃ config, load files name path
        (Environment.without setting.shellVariableName environment) = .ok config ∧
      (setting ∈ [.depth, .multiplier, .level, .directives, .format, .output] →
        ∀ value : setting.Value, setting.kind.Spells text value →
          ∃ changed, load files name path environment = .ok changed ∧
            changed.value setting = value ∧
            ∀ other ≠ setting, changed.value other = config.value other) ∧
      (setting ∉ [.depth, .multiplier, .level, .directives, .format, .output] →
        load files name path environment =
          if setting = .dbPath ∧ (env .dbPath).isNone ∧ (file .dbPath).isNone then .error .unfit
          else .ok config) := by
  rw [← NodeSetting.shellPath_eq_path_iff]
  refine ⟨_, load_of_gives hfile henv.rest path, fun hsame value hspells => ?_, fun hhyphen => ?_⟩
  · rw [hsame] at henv
    refine ⟨_, load_of_added hfile henv (SettingKind.read?_of_spells hspells) path, ?_, ?_⟩
    · rw [value_ofValues, Function.update_self]
    · intro other hother
      rw [value_ofValues, value_ofValues, Function.update_of_ne hother]
  · split
    next hdisplaced =>
      obtain ⟨rfl, henvNone, hfileNone⟩ := hdisplaced
      exact load_of_displaced hfile henv
        ⟨Option.isNone_iff_eq_none.mp henvNone, Option.isNone_iff_eq_none.mp hfileNone⟩ path
    next hplaced =>
      refine load_of_idle hfile hhyphen henv (fun hdbPath hnone => hplaced ⟨hdbPath, ?_⟩) path
      exact ⟨Option.isNone_iff_eq_none.mpr hnone.1, Option.isNone_iff_eq_none.mpr hnone.2⟩

/-- An environment with a time limit in a variable that a shell can export. -/
def shellSample : List (String × String) :=
  (NodeSetting.requestTimeoutSecs.shellVariableName, "5") :: Environment.sample

theorem shellSample_adds :
    Environment.Adds shellSample NodeSetting.requestTimeoutSecs.shellPath "5"
      .sampleEnvironment :=
  Environment.sample_gives.adds (by decide +kernel) "5"

/-- The time limit stays at its default. -/
theorem sample_load_with_shell_variable :
    SettingsFile.Gives [.sample] SettingsFile.sample.name .sampleFile ∧
      Environment.Adds shellSample NodeSetting.requestTimeoutSecs.shellPath "5"
        .sampleEnvironment ∧
      ∃ config, load [.sample] SettingsFile.sample.name "n.toml" shellSample = .ok config ∧
        config.broadcaster.backfill.requestTimeoutSecs = 30 := by
  obtain ⟨config, hwithout, -, hhyphen⟩ :=
    load_with_shell_variable SettingsFile.sample_gives shellSample_adds "n.toml"
  have hload := hhyphen (by decide)
  rw [if_neg (by decide)] at hload
  have hconfig : config = .ofValues (prefer .sampleEnvironment .sampleFile) := Except.ok.inj
    (hwithout.symm.trans (load_of_gives SettingsFile.sample_gives shellSample_adds.rest "n.toml"))
  exact ⟨SettingsFile.sample_gives, shellSample_adds, config, hload, hconfig ▸ rfl⟩

end NodeConfig

end LogRelay
