import LogRelay.Proofs.Precedence
import Mathlib.Logic.Function.Basic

/-!
# What one more variable changes

An environment has one more variable than one that gives settings.  If the variable stands for
the place of a setting, this setting has the value that its text stands for
(`NodeConfig.load_of_added`).  If it stands for a place with underscores for hyphens, where no
setting is, then nothing changes (`NodeConfig.load_of_idle`), unless it calls for a section for
the database that does not say where it is (`NodeConfig.load_of_displaced`).
-/

namespace LogRelay

theorem lookup_of_mem {α : Type} {name : String} {value : α} {entries : List (String × α)}
    (hdistinct : (entries.map (·.1)).Nodup) (hmem : (name, value) ∈ entries) :
    entries.lookup name = some value := by
  induction entries with
  | nil => cases hmem
  | cons entry rest ih =>
      obtain ⟨first, other⟩ := entry
      obtain ⟨hfirst, hrest⟩ := List.nodup_cons.mp hdistinct
      rcases List.mem_cons.mp hmem with heq | hlater
      · cases heq
        exact List.lookup_cons_self
      · have hname : name ∈ rest.map (·.1) := List.mem_map.mpr ⟨_, hlater, rfl⟩
        have hne : name ≠ first := by
          rintro rfl
          exact hfirst hname
        rw [lookup_cons_of_ne hne, ih hrest hlater]

namespace Environment

open NodeSetting (places)

/-- The environment without the variable of the given name. -/
def without (name : String) (environment : List (String × String)) : List (String × String) :=
  environment.filter fun entry => entry.1 ≠ name

/-- The environment holds the text in the variable for the place, and without this variable it
gives the settings. -/
structure Adds (environment : List (String × String)) (place : List String) (text : String)
    (given : Assignment) : Prop where
  distinct : (environment.map (·.1)).Nodup
  present : (variableName place, text) ∈ environment
  rest : Gives (without (variableName place) environment) given

variable {environment : List (String × String)} {place : List String} {text : String}
  {given : Assignment}

/-- A variable with a new name is added in front. -/
theorem Gives.adds (h : Gives environment given)
    (hnew : variableName place ∉ environment.map (·.1)) (text : String) :
    Adds ((variableName place, text) :: environment) place text given where
  distinct := List.nodup_cons.mpr ⟨hnew, h.distinct⟩
  present := List.mem_cons_self
  rest := by
    have hrest : without (variableName place) ((variableName place, text) :: environment) =
        environment := by
      rw [without, List.filter_cons_of_neg (by simp), List.filter_eq_self]
      intro entry hentry
      have hne : entry.1 ≠ variableName place := fun hname =>
        hnew (hname ▸ List.mem_map.mpr ⟨entry, hentry, rfl⟩)
      simpa using hne
    exact hrest.symm ▸ h

theorem Adds.isTidy (h : Adds environment place text given) (hplace : place ∈ places) :
    IsTidy environment where
  distinct := h.distinct
  known entry hentry := by
    by_cases hname : entry.1 = variableName place
    · exact .inr ⟨place, hplace, hname⟩
    · exact h.rest.isTidy.known entry (List.mem_filter.mpr ⟨hentry, by simpa using hname⟩)

theorem Adds.lookup_self (h : Adds environment place text given) :
    environment.lookup (variableName place) = some text :=
  lookup_of_mem h.distinct h.present

theorem lookup_without (hplace : place ∈ places) {other : List String} (hother : other ∈ places)
    (hne : other ≠ place) (environment : List (String × String)) :
    (without (variableName place) environment).lookup (variableName other) =
      environment.lookup (variableName other) :=
  lookup_filter_ne (fun hname => hne (NodeSetting.variableName_inj hother hplace hname)) environment

end Environment

namespace NodeConfig

open NodeSetting (places)

variable {files : List SettingsFile} {name path : String} {environment : List (String × String)}
  {place : List String} {text : String} {file env : Assignment} {settings : Setting}

theorem read?_lay_of_added_self {setting : NodeSetting}
    (henv : Environment.Adds environment setting.path text env) :
    setting.read? (Environment.lay settings environment) =
      setting.kind.read? (Environment.ofText text) := by
  rw [read?_lay (henv.isTidy setting.path_mem_places), NodeSetting.variableName, henv.lookup_self]
  rfl

theorem read?_lay_of_added_ne (hsettings : settings.Holds file) (hplace : place ∈ places)
    (henv : Environment.Adds environment place text env) {setting : NodeSetting}
    (hne : setting.path ≠ place) :
    setting.read? (Environment.lay settings environment) = some (prefer env file setting) := by
  rw [read?_lay (henv.isTidy hplace), NodeSetting.variableName,
    ← Environment.lookup_without hplace setting.path_mem_places hne, ← NodeSetting.variableName,
    ← read?_lay henv.rest.isTidy, read?_lay_of_gives hsettings henv.rest]

/-- No other variable is named for a setting with underscores for hyphens. -/
theorem lookup_shellVariableName_of_added (hplace : place ∈ places)
    (henv : Environment.Adds environment place text env) {setting : NodeSetting}
    (hhyphen : setting.shellPath ≠ setting.path) (hne : setting.shellPath ≠ place) :
    environment.lookup setting.shellVariableName = none := by
  rw [NodeSetting.shellVariableName,
    ← Environment.lookup_without hplace setting.shellPath_mem_places hne]
  exact lookup_shellVariableName henv.rest hhyphen

/-- The setting that the variable stands for has the value of its text, and all others are as they
are without it. -/
theorem load_of_added (hfile : SettingsFile.Gives files name file) {setting : NodeSetting}
    (henv : Environment.Adds environment setting.path text env) {value : setting.Value}
    (hvalue : setting.kind.read? (Environment.ofText text) = some value) (path : String) :
    load files name path environment =
      .ok (.ofValues (Function.update (prefer env file) setting value)) := by
  obtain ⟨source, format, settings, hfind, hread, hsettings⟩ := hfile
  have htidy := henv.isTidy setting.path_mem_places
  have hstore : (Environment.lay settings environment).PlacesStore := by
    refine placesStore_lay htidy hsettings.store ?_
    refine lookup_shellVariableName_of_added setting.path_mem_places henv (by decide)
      fun hsame => ?_
    obtain rfl : .dbPath = setting := NodeSetting.eq_of_place _ (NodeSetting.mem_all _) _
      setting.mem_all (.inr (.inl hsame))
    exact absurd hsame (by decide)
  have hreads (other : NodeSetting) : other.read? (Environment.lay settings environment) =
      some (Function.update (prefer env file) setting value other) := by
    by_cases hother : other = setting
    · subst hother
      rw [read?_lay_of_added_self henv, hvalue, Function.update_self]
    · have hne : other.path ≠ setting.path := fun hsame =>
        hother (NodeSetting.eq_of_place _ other.mem_all _ setting.mem_all (.inl hsame))
      rw [read?_lay_of_added_ne hsettings setting.path_mem_places henv hne,
        Function.update_of_ne hother]
  rw [load_eq hfind hread hsettings.plain htidy,
    Setting.node?_eq_ofValues (htidy.isSectioned_lay hsettings.sectioned) hstore hreads,
    Option.elim_some]

theorem at?_lay_eq_none_iff (hsettings : settings.Holds file) (hplace : place ∈ places)
    (henv : Environment.Adds environment place text env) {setting : NodeSetting}
    (hne : setting.path ≠ place) :
    (Environment.lay settings environment).at? setting.path = none ↔
      env setting = none ∧ file setting = none := by
  rw [(henv.isTidy hplace).at?_lay setting.path_mem_places,
    ← Environment.lookup_without hplace setting.path_mem_places hne, Option.or_eq_none_iff,
    Option.map_eq_none_iff, hsettings.at?_eq_none_iff, ← NodeSetting.variableName,
    henv.rest.lookup_eq_none_iff]

/-- A variable named with underscores for hyphens changes nothing, unless it is the one for the
place of the database and nothing else says where that is. -/
theorem load_of_idle (hfile : SettingsFile.Gives files name file) {setting : NodeSetting}
    (hhyphen : setting.shellPath ≠ setting.path)
    (henv : Environment.Adds environment setting.shellPath text env)
    (hplaced : setting = .dbPath → ¬(env .dbPath = none ∧ file .dbPath = none)) (path : String) :
    load files name path environment = .ok (.ofValues (prefer env file)) := by
  obtain ⟨source, format, settings, hfind, hread, hsettings⟩ := hfile
  have htidy := henv.isTidy setting.shellPath_mem_places
  have hpath (other : NodeSetting) : other.path ≠ setting.shellPath := by
    intro hsame
    have hsetting := NodeSetting.eq_of_place _ setting.mem_all _ other.mem_all
      (.inr (.inl hsame.symm))
    exact hhyphen (hsetting ▸ hsame.symm)
  have hstore : (Environment.lay settings environment).PlacesStore := by
    by_cases hdbPath : setting = .dbPath
    · refine (placesStore_lay_iff htidy).mpr fun _ => ?_
      rw [ne_eq, at?_lay_eq_none_iff hsettings setting.shellPath_mem_places henv (hpath _)]
      exact hplaced hdbPath
    · refine placesStore_lay htidy hsettings.store ?_
      refine lookup_shellVariableName_of_added setting.shellPath_mem_places henv (by decide)
        fun hsame => hdbPath ?_
      exact NodeSetting.eq_of_place _ setting.mem_all _ (NodeSetting.mem_all _)
        (.inr (.inr hsame.symm))
  rw [load_eq hfind hread hsettings.plain htidy,
    Setting.node?_eq_ofValues (htidy.isSectioned_lay hsettings.sectioned) hstore fun other =>
      read?_lay_of_added_ne hsettings setting.shellPath_mem_places henv (hpath other),
    Option.elim_some]

/-- The variable for the place of the database, named with an underscore, calls for a section that
has to say where it is. -/
theorem load_of_displaced (hfile : SettingsFile.Gives files name file)
    (henv : Environment.Adds environment NodeSetting.dbPath.shellPath text env)
    (hnone : env .dbPath = none ∧ file .dbPath = none) (path : String) :
    load files name path environment = .error .unfit := by
  obtain ⟨source, format, settings, hfind, hread, hsettings⟩ := hfile
  have hplace := NodeSetting.dbPath.shellPath_mem_places
  have htidy := henv.isTidy hplace
  have hpresent : environment.lookup NodeSetting.dbPath.shellVariableName ≠ none := by
    simp [NodeSetting.shellVariableName, henv.lookup_self]
  have hstore : ¬(Environment.lay settings environment).PlacesStore := by
    intro hplaces
    refine (placesStore_lay_iff htidy).mp hplaces (.inr (.inr hpresent)) ?_
    exact (at?_lay_eq_none_iff hsettings hplace henv (by decide)).mpr hnone
  have hnode : Setting.lenient.node? (Environment.lay settings environment) = none := by
    refine Option.eq_none_iff_forall_ne_some.mpr fun config hconfig => hstore ?_
    exact ((Setting.node?_eq_some_iff (htidy.isSectioned_lay hsettings.sectioned)).mp hconfig).1
  rw [load_eq hfind hread hsettings.plain htidy, hnode, Option.elim_none]

end NodeConfig

end LogRelay
