import LogRelay.Proofs.SettingValues

/-!
# The environment before the file before the default

A file gives some settings (`SettingsFile.Gives`), and an environment gives some
(`Environment.Gives`).  A node is loaded from both, and each of its settings has the value from
the environment, or else the one from the file, or else its default
(`NodeConfig.load_by_precedence`).
-/

namespace LogRelay

/-- Values for some of the settings of a node. -/
abbrev Assignment : Type := (setting : NodeSetting) → Option setting.Value

/-- What was read from a file gives these settings their values, and no others.  Other names may
stand in it as well, as long as they stand for themselves and not in the way of a setting. -/
structure Setting.Holds (settings : Setting) (given : Assignment) : Prop where
  plain : settings.HasPlainNames
  sectioned : settings.IsSectioned
  store : settings.PlacesStore
  shown : ∀ (setting : NodeSetting) (value : setting.Value), given setting = some value →
    ∃ there, settings.at? setting.path = some there ∧ setting.kind.Shows there value
  missing : ∀ setting : NodeSetting, given setting = none → settings.at? setting.path = none

/-- The file that the name means can be read, and it gives these settings. -/
def SettingsFile.Gives (files : List SettingsFile) (name : String) (given : Assignment) : Prop :=
  ∃ file format settings, find? files name = some (file, format) ∧
    read? file.content format = some settings ∧ settings.Holds given

/-- Each variable has a name of its own, and those that hold settings are named for the given ones and
spell their values. -/
structure Environment.Gives (environment : List (String × String)) (given : Assignment) :
    Prop where
  distinct : (environment.map (·.1)).Nodup
  known : ∀ entry ∈ environment, path? entry.1 = none ∨
    ∃ setting : NodeSetting, entry.1 = setting.variableName
  spelled : ∀ (setting : NodeSetting) (value : setting.Value), given setting = some value →
    ∃ written, environment.lookup setting.variableName = some written ∧
      setting.kind.Spells written value
  missing : ∀ setting : NodeSetting, given setting = none →
    environment.lookup setting.variableName = none

/-- A table holds the given settings if they have their values and nothing else stands in it, but
for the tables above their places. -/
theorem Setting.Holds.of_only {entries : List (String × Setting)} {given : Assignment}
    (shown : ∀ (setting : NodeSetting) (value : setting.Value), given setting = some value →
      ∃ there, (table entries).at? setting.path = some there ∧ setting.kind.Shows there value)
    (only : ∀ place ≠ [], (table entries).at? place ≠ none →
      ∃ setting, given setting ≠ none ∧ place <+: setting.path) :
    (table entries).Holds given where
  shown := shown
  plain entry hentry := by
    have hname : entry.1 ∈ entries.map (·.1) := List.mem_map.mpr ⟨entry, hentry, rfl⟩
    have hthere : (table entries).at? [entry.1] ≠ none := by
      simpa [at?] using mt lookup_eq_none_iff_not_mem.mp (not_not.mpr hname)
    obtain ⟨setting, -, habove⟩ := only [entry.1] (List.cons_ne_nil _ _) hthere
    have hparts := (NodeSetting.isPart_of_mem_places _ setting.path_mem_places).2
    exact (hparts entry.1 (habove.subset List.mem_cons_self)).isName
  sectioned setting place hplace hne there hthere := by
    by_cases hroot : place = []
    · subst hroot
      exact ⟨entries, (Option.some_inj.mp hthere).symm⟩
    · obtain ⟨other, hother, habove⟩ := only place hroot (hthere ▸ Option.some_ne_none there)
      obtain ⟨value, hvalue⟩ := Option.ne_none_iff_exists'.mp hother
      obtain ⟨shownThere, hshown, -⟩ := shown other value hvalue
      obtain ⟨rest, hrest⟩ := habove
      rw [← hrest, at?_append, hthere, Option.bind_some] at hshown
      cases rest with
      | nil =>
          -- Then the place would be that of a setting, and lie above another one.
          rw [List.append_nil] at hrest
          exact absurd (hrest.trans (NodeSetting.eq_of_prefix _ other.path_mem_places _
            setting.path_mem_places (hrest ▸ hplace))) hne
      | cons name rest => exact exists_table (hshown ▸ Option.some_ne_none shownThere)
  store hstore := by
    obtain ⟨setting, hsetting, habove⟩ := only ["store"] (List.cons_ne_nil _ _) hstore
    obtain ⟨value, hvalue⟩ := Option.ne_none_iff_exists'.mp hsetting
    obtain ⟨there, hthere, -⟩ := shown setting value hvalue
    rcases NodeSetting.eq_of_store_prefix _ setting.path_mem_places habove with hpath | hpath
    · exact hpath ▸ hthere ▸ Option.some_ne_none there
    · obtain rfl : .dbPath = setting := NodeSetting.eq_of_place _ (NodeSetting.mem_all _) _
        setting.mem_all (.inr (.inl hpath.symm))
      exact absurd hpath (by decide)
  missing setting hnone := by
    by_contra hthere
    obtain ⟨other, hother, habove⟩ := only setting.path
      (NodeSetting.isPart_of_mem_places _ setting.path_mem_places).1 hthere
    have hpath := NodeSetting.eq_of_prefix _ setting.path_mem_places _ other.path_mem_places habove
    obtain rfl := NodeSetting.eq_of_place _ setting.mem_all _ other.mem_all (.inl hpath)
    exact hother hnone

theorem Setting.Holds.at?_eq_none_iff {settings : Setting} {given : Assignment}
    (h : settings.Holds given) {setting : NodeSetting} :
    settings.at? setting.path = none ↔ given setting = none := by
  refine ⟨fun hnone => Option.eq_none_iff_forall_ne_some.mpr fun value hvalue => ?_, h.missing _⟩
  obtain ⟨there, hthere, -⟩ := h.shown setting value hvalue
  cases hnone.symm.trans hthere

theorem Environment.Gives.lookup_eq_none_iff {environment : List (String × String)}
    {given : Assignment} (h : Gives environment given) {setting : NodeSetting} :
    environment.lookup setting.variableName = none ↔ given setting = none := by
  refine ⟨fun hnone => Option.eq_none_iff_forall_ne_some.mpr fun value hvalue => ?_, h.missing _⟩
  obtain ⟨written, hwritten, -⟩ := h.spelled setting value hvalue
  cases hnone.symm.trans hwritten

theorem Environment.Gives.isTidy {environment : List (String × String)} {given : Assignment}
    (h : Gives environment given) : IsTidy environment :=
  ⟨h.distinct, fun entry hentry => (h.known entry hentry).imp_right fun ⟨setting, hname⟩ =>
    ⟨setting.path, setting.path_mem_places, hname⟩⟩

/-! ## A file and an environment -/

/-- A file with two settings. -/
def SettingsFile.sample : SettingsFile where
  name := "n.toml"
  content := "[log]\nlevel = \"debug\"\nformat = \"json\"\n"

/-- What is read from the file. -/
def Setting.sample : Setting :=
  .table [("log", .table [("level", .text "debug"), ("format", .text "json")])]

/-- The settings in the file. -/
def Assignment.sampleFile : Assignment
  | .level => some "debug"
  | .format => some LogFormat.json
  | _ => none

theorem Setting.sample_holds : Setting.sample.Holds .sampleFile := by
  refine .of_only (fun setting value hvalue => ?_) fun place hplace hthere => ?_
  · cases setting <;> cases hvalue <;> exact ⟨_, rfl, rfl⟩
  · obtain ⟨name, rest, rfl⟩ := List.exists_cons_of_ne_nil hplace
    obtain ⟨there, hmem, hrest⟩ := exists_mem_of_at? hthere
    obtain ⟨rfl, rfl⟩ := Prod.mk.inj (List.mem_singleton.mp hmem)
    cases rest with
    | nil => exact ⟨.level, Option.some_ne_none _, by decide⟩
    | cons name rest =>
        obtain ⟨value, hinner, hvalue⟩ := exists_mem_of_at? hrest
        simp only [List.mem_cons, Prod.mk.injEq, List.not_mem_nil, or_false] at hinner
        rcases hinner with ⟨rfl, rfl⟩ | ⟨rfl, rfl⟩ <;> obtain rfl := eq_nil_of_at?_text hvalue
        · exact ⟨.level, Option.some_ne_none _, by decide⟩
        · exact ⟨.format, Option.some_ne_none _, by decide⟩

/-- Whether a value is what is in the file. -/
def Setting.isSample : Setting → Bool
  | .table [("log", .table [("level", .text "debug"), ("format", .text "json")])] => true
  | _ => false

theorem Setting.eq_sample {setting : Setting} (h : setting.isSample = true) :
    setting = Setting.sample := by
  unfold isSample at h
  split at h
  · rfl
  · cases h

theorem splitOnAux_next {text : String} {place : String.Pos.Raw}
    (hend : place.atEnd text = false) (hstroke : (place.get text == '/') = false) :
    text.splitOnAux "/" 0 place 0 [] = text.splitOnAux "/" 0 (place.next text) 0 [] := by
  have hseparator : String.Pos.Raw.get "/" 0 = '/' := by decide
  rw [String.splitOnAux, if_neg (by simp [hend]), hseparator, if_neg (by simp [hstroke])]
  rfl

theorem SettingsFile.splitOn_sample : sample.name.splitOn "/" = [sample.name] := by
  rw [sample, String.splitOn, if_neg (by decide), splitOnAux_next (by decide) (by decide),
    splitOnAux_next (by decide) (by decide), splitOnAux_next (by decide) (by decide),
    splitOnAux_next (by decide) (by decide), splitOnAux_next (by decide) (by decide),
    splitOnAux_next (by decide) (by decide), String.splitOnAux, if_pos (by decide)]
  decide

theorem SettingsFile.find?_sample : find? [sample] sample.name = some (sample, .toml) := by
  have hroute : route sample.name = [sample.name] := by
    rw [route, splitOn_sample]
    decide
  have hfolder : isFolder sample.name = false := by
    rw [isFolder, splitOn_sample]
    decide
  have hsuffix : suffix? sample.name = some "toml" := by decide
  have hat : at? [sample] [sample.name] = some sample := by simp [at?, hroute]
  simp [find?, hroute, hfolder, hat, hsuffix, formats]

theorem SettingsFile.sample_gives : Gives [sample] sample.name .sampleFile := by
  have hread : (read? sample.content .toml).any Setting.isSample = true := by decide +kernel
  obtain ⟨settings, hsettings, hsample⟩ := (Option.any_eq_true _ _).mp hread
  exact ⟨sample, .toml, settings, find?_sample, hsettings,
    Setting.eq_sample hsample ▸ Setting.sample_holds⟩

/-- A variable that holds no setting, and two that do. -/
def Environment.sample : List (String × String) :=
  [("HOME", "/root"), ("VRF_ORACLE__LOG__LEVEL", "warn"),
    ("VRF_ORACLE__BROADCASTER__BACKFILL__DEPTH", "25")]

/-- The settings in the environment. -/
def Assignment.sampleEnvironment : Assignment
  | .level => some "warn"
  | .depth => some (25 : UInt64)
  | _ => none

theorem Environment.sample_gives : Gives sample .sampleEnvironment where
  distinct := by decide
  known := by
    have hlevel : "VRF_ORACLE__LOG__LEVEL" = NodeSetting.level.variableName := by decide +kernel
    have hdepth : "VRF_ORACLE__BROADCASTER__BACKFILL__DEPTH" = NodeSetting.depth.variableName := by
      decide +kernel
    simp only [sample, List.forall_mem_cons, List.not_mem_nil, false_implies, implies_true,
      and_true]
    exact ⟨.inl (by decide +kernel), .inr ⟨.level, hlevel⟩, .inr ⟨.depth, hdepth⟩⟩
  spelled setting value hvalue := by
    cases setting <;> cases hvalue
    · have hcount : Decimal.int64? "25".toList = some 25 := by decide
      exact ⟨"25", by decide +kernel, hcount⟩
    · exact ⟨"warn", by decide +kernel, rfl, by decide, by decide,
        Option.isNone_iff_eq_none.mp (by decide)⟩
  missing setting hnone := by
    have hmissing : ∀ setting ∈ NodeSetting.all, setting ≠ .level → setting ≠ .depth →
        sample.lookup setting.variableName = none := by
      decide +kernel
    refine hmissing setting setting.mem_all ?_ ?_ <;>
    · rintro rfl
      cases hnone

namespace NodeConfig

variable {files : List SettingsFile} {name path : String} {environment : List (String × String)}
  {file env : Assignment} {settings : Setting}

/-- The value from the environment, or else from the file, or else the default. -/
def prefer (env file : Assignment) (setting : NodeSetting) : setting.Value :=
  ((env setting).or (file setting)).getD setting.default

theorem read?_lay (h : Environment.IsTidy environment) (setting : NodeSetting) :
    setting.read? (Environment.lay settings environment) =
      Field.withDefault setting.default setting.kind.read?
        (((environment.lookup setting.variableName).map Environment.ofText).or
          (settings.at? setting.path)) := by
  rw [NodeSetting.read?, h.at?_lay setting.path_mem_places, NodeSetting.variableName]

theorem read?_lay_of_gives (hsettings : settings.Holds file)
    (henv : Environment.Gives environment env) (setting : NodeSetting) :
    setting.read? (Environment.lay settings environment) = some (prefer env file setting) := by
  rw [read?_lay henv.isTidy, prefer]
  cases hgiven : env setting with
  | some value =>
      obtain ⟨written, hlookup, hspells⟩ := henv.spelled setting value hgiven
      rw [hlookup]
      exact SettingKind.read?_of_spells hspells
  | none =>
      rw [henv.missing setting hgiven]
      cases hfile : file setting with
      | some value =>
          obtain ⟨there, hthere, hshows⟩ := hsettings.shown setting value hfile
          rw [hthere]
          exact SettingKind.read?_of_shows hshows
      | none =>
          rw [hsettings.missing setting hfile]
          rfl

/-- No variable is named for a setting with underscores for hyphens. -/
theorem lookup_shellVariableName (henv : Environment.Gives environment env)
    {setting : NodeSetting} (hhyphen : setting.shellPath ≠ setting.path) :
    environment.lookup setting.shellVariableName = none := by
  refine lookup_eq_none_iff_not_mem.mpr fun hmem => ?_
  obtain ⟨entry, hentry, hname⟩ := List.mem_map.mp hmem
  rcases henv.known entry hentry with hnone | ⟨other, hother⟩
  · rw [hname] at hnone
    cases hnone.symm.trans (NodeSetting.path?_of_mem_places setting.shellPath_mem_places)
  · have hplace : setting.shellPath = other.path :=
      NodeSetting.variableName_inj setting.shellPath_mem_places other.path_mem_places
        (hname.symm.trans hother)
    have hsame := NodeSetting.eq_of_place _ setting.mem_all _ other.mem_all (.inr (.inl hplace))
    exact hhyphen (hsame ▸ hplace)

theorem load_of_gives (hfile : SettingsFile.Gives files name file)
    (henv : Environment.Gives environment env) (path : String) :
    load files name path environment = .ok (.ofValues (prefer env file)) := by
  obtain ⟨source, format, settings, hfind, hread, hsettings⟩ := hfile
  have hstore := placesStore_lay henv.isTidy hsettings.store
    (lookup_shellVariableName henv (by decide))
  rw [load_eq hfind hread hsettings.plain henv.isTidy,
    Setting.node?_eq_ofValues (henv.isTidy.isSectioned_lay hsettings.sectioned) hstore
      (read?_lay_of_gives hsettings henv),
    Option.elim_some]

/-- A node is loaded from every file and every environment that give settings.  Each setting has
the value from the environment, or else from the file, or else its default, and when a setting is
set or removed in the file or in the environment, all others stay as they are. -/
theorem load_by_precedence (hfile : SettingsFile.Gives files name file)
    (henv : Environment.Gives environment env) (path : String) :
    ∃ config, load files name path environment = .ok config ∧
      (∀ setting : NodeSetting, config.value setting =
        ((env setting).or (file setting)).getD setting.default) ∧
      ∀ (changed : NodeSetting) (newFiles : List SettingsFile) (newName newPath : String)
        (newEnvironment : List (String × String)) (newFile newEnv : Assignment),
        SettingsFile.Gives newFiles newName newFile → Environment.Gives newEnvironment newEnv →
        (∀ other ≠ changed, newFile other = file other ∧ newEnv other = env other) →
        ∃ newConfig, load newFiles newName newPath newEnvironment = .ok newConfig ∧
          ∀ other ≠ changed, newConfig.value other = config.value other := by
  refine ⟨_, load_of_gives hfile henv path, value_ofValues _, ?_⟩
  intro changed newFiles newName newPath newEnvironment newFile newEnv hnewFile hnewEnv hothers
  refine ⟨_, load_of_gives hnewFile hnewEnv newPath, fun other hother => ?_⟩
  obtain ⟨hsameFile, hsameEnv⟩ := hothers other hother
  rw [value_ofValues, value_ofValues, prefer, prefer, hsameFile, hsameEnv]

/-- The level is from the environment, the format from the file, and the output is the default. -/
theorem sample_load_by_precedence :
    SettingsFile.Gives [.sample] SettingsFile.sample.name .sampleFile ∧
      Environment.Gives Environment.sample .sampleEnvironment ∧
      ∃ config, load [.sample] SettingsFile.sample.name "n.toml" Environment.sample = .ok config ∧
        config.log.level = "warn" ∧ config.log.format = .json ∧ config.log.output = .stdout := by
  obtain ⟨config, hload, hvalues, -⟩ :=
    load_by_precedence SettingsFile.sample_gives Environment.sample_gives "n.toml"
  exact ⟨SettingsFile.sample_gives, Environment.sample_gives, config, hload,
    hvalues .level, hvalues .format, hvalues .output⟩

end NodeConfig

end LogRelay
