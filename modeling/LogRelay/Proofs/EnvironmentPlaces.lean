import LogRelay.Proofs.NodeSettings
import LogRelay.Proofs.ProperTables

/-!
# Variables and the places that they stand for

The name of the variable for a place is read as the path to it
(`Environment.path?_variableName`), so variables with different names stand for different places.
Settings of a node stand at places that lie apart from each other (`NodeSetting.eq_of_prefix`),
also when they are named with underscores for hyphens.

Hence an environment whose variables are named for settings of a node (`Environment.IsTidy`) is
laid over other settings variable by variable: at the place of each variable stands the value of
its text (`Environment.IsTidy.at?_lay`), and nothing but tables comes to stand above it.
-/

namespace LogRelay

/-! ## Names of variables -/

namespace Environment

/-- The text in capital letters. -/
def capital (name : String) : String := String.ofList (name.toList.map Char.toUpper)

/-- The name of the variable for a place: the names on the way to it in capital letters, with two
underscores between them. -/
def variableName (place : List String) : String :=
  "VRF_ORACLE__" ++ "__".intercalate (place.map capital)

/-- The letters of the names of settings. -/
def letters : List Char := "abcdefghijklmnopqrstuvwxyz-_".toList

theorem smallLetter_toUpper {c : Char} (h : c ∈ letters) : smallLetter c.toUpper = c := by
  have hall : letters.all (fun c => smallLetter c.toUpper == c) = true := by decide
  exact beq_iff_eq.mp (List.all_eq_true.mp hall c h)

theorem isNamePart_of_mem_letters {c : Char} (h : c ∈ letters) : PathStep.isNamePart c = true := by
  have hall : letters.all PathStep.isNamePart = true := by decide
  exact List.all_eq_true.mp hall c h

/-- Whether the text has no two underscores after each other and none at its end. -/
def isJoined : List Char → Bool
  | [] => true
  | [c] => c != '_'
  | c :: d :: rest => !(c == '_' && d == '_') && isJoined (d :: rest)

/-- The text can be read back from the name of a variable as one name of a path. -/
structure IsPart (name : String) : Prop where
  ne_nil : name.toList ≠ []
  letters : ∀ c ∈ name.toList, c ∈ letters
  joined : isJoined name.toList = true

theorem isPart_iff (name : String) : name.toList ≠ [] ∧ name.toList.all letters.contains = true ∧
    isJoined name.toList = true ↔ IsPart name := by
  simp only [List.all_eq_true, List.contains_iff_mem]
  exact ⟨fun ⟨hfilled, hletters, hjoined⟩ => ⟨hfilled, hletters, hjoined⟩,
    fun ⟨hfilled, hletters, hjoined⟩ => ⟨hfilled, hletters, hjoined⟩⟩

instance (name : String) : Decidable (IsPart name) := decidable_of_iff _ (isPart_iff name)

theorem IsPart.isName {name : String} (h : IsPart name) : PathStep.IsName name :=
  ⟨h.ne_nil, fun c hc => isNamePart_of_mem_letters (h.letters c hc)⟩

theorem map_smallLetter_capital {name : String} (h : IsPart name) :
    (capital name).toList.map smallLetter = name.toList := by
  rw [capital, String.toList_ofList, List.map_map]
  exact (List.map_congr_left fun c hc => smallLetter_toUpper (h.letters c hc)).trans
    (List.map_id _)

theorem map_smallLetter_trail {names : List String} (h : ∀ name ∈ names, IsPart name) :
    (trail "__" (names.map capital)).map smallLetter = trail "__" names := by
  induction names with
  | nil => rfl
  | cons name rest ih =>
      obtain ⟨hname, hrest⟩ := List.forall_mem_cons.mp h
      have hmark : "__".toList.map smallLetter = "__".toList := by decide
      simp only [trail] at ih
      simp only [trail, List.map_cons, List.flatMap_cons, List.map_append, hmark,
        map_smallLetter_capital hname, ih hrest]

theorem separate_cons {c : Char} {rest : List Char} (h : c = '_' → rest.head? ≠ some '_') :
    separate (c :: rest) = c :: separate rest := by
  rw [separate]
  rintro rest' rfl rfl
  exact h rfl rfl

/-- A name is not separated, whatever comes after it. -/
theorem separate_append {text : List Char} (h : isJoined text = true) (rest : List Char) :
    separate (text ++ rest) = text ++ separate rest := by
  induction text using isJoined.induct with
  | case1 => rfl
  | case2 c => 
      have hc : c ≠ '_' := by simpa [isJoined] using h
      exact separate_cons fun heq => absurd heq hc
  | case3 c d text ih =>
      simp only [isJoined, Bool.and_eq_true, Bool.not_eq_true', Bool.and_eq_false_iff] at h
      have hnext : c = '_' → (d :: text ++ rest).head? ≠ some '_' := by
        rintro rfl
        simpa using h.1
      exact (separate_cons hnext).trans (congrArg _ (ih h.2))

theorem separate_trail {names : List String} (h : ∀ name ∈ names, IsPart name) :
    separate (trail "__" names) = trail "." names := by
  induction names with
  | nil => rfl
  | cons name rest ih =>
      obtain ⟨hname, hrest⟩ := List.forall_mem_cons.mp h
      have hfirst (separator : String) : trail separator (name :: rest) =
          separator.toList ++ name.toList ++ trail separator rest := rfl
      calc separate (trail "__" (name :: rest))
          = '.' :: separate (name.toList ++ trail "__" rest) := by
            rw [hfirst, List.append_assoc]
            rfl
        _ = trail "." (name :: rest) := by
            rw [separate_append hname.joined, ih hrest, hfirst]
            rfl

theorem path?_variableName {place : List String} (hplace : place ≠ [])
    (h : ∀ name ∈ place, IsPart name) :
    path? (variableName place) = some (".".intercalate place) := by
  obtain ⟨name, rest, rfl⟩ := List.exists_cons_of_ne_nil hplace
  obtain ⟨hname, hrest⟩ := List.forall_mem_cons.mp h
  have hsmall : (variableName (name :: rest)).toList.map smallLetter =
      mark.toList ++ (name.toList ++ trail "__" rest) := by
    have hmark : "VRF_ORACLE__".toList.map smallLetter = mark.toList := by decide
    rw [variableName, List.map_cons, String.toList_append, toList_intercalate_cons,
      List.map_append, List.map_append, hmark, map_smallLetter_capital hname,
      map_smallLetter_trail hrest]
  have hprefix : mark.toList.isPrefixOf (mark.toList ++ (name.toList ++ trail "__" rest)) = true :=
    List.isPrefixOf_iff_prefix.mpr (List.prefix_append _ _)
  have hlength : mark.length = mark.toList.length := rfl
  rw [path?, hsmall, if_pos hprefix, hlength, List.drop_left, separate_append hname.joined,
    separate_trail hrest, ← toList_intercalate_cons, String.ofList_toList]

end Environment

namespace NodeSetting

/-- The name as a shell can export it, with underscores for hyphens. -/
def shellName (name : String) : String :=
  String.ofList (name.toList.map fun c => if c = '-' then '_' else c)

/-- The place of the setting, with underscores for hyphens. -/
def shellPath (setting : NodeSetting) : List String := setting.path.map shellName

/-- The places of settings, with hyphens or underscores. -/
def places : List (List String) := all.map path ++ all.map shellPath

/-- The name of the variable for the setting. -/
def variableName (setting : NodeSetting) : String := Environment.variableName setting.path

/-- The name of the variable for the setting as a shell can export it. -/
def shellVariableName (setting : NodeSetting) : String :=
  Environment.variableName setting.shellPath

example : dbPath.variableName = "VRF_ORACLE__STORE__DB-PATH" ∧
    dbPath.shellVariableName = "VRF_ORACLE__STORE__DB_PATH" := by decide +kernel

theorem path_mem_places (setting : NodeSetting) : setting.path ∈ places :=
  List.mem_append_left _ (List.mem_map_of_mem (mem_all setting))

theorem shellPath_mem_places (setting : NodeSetting) : setting.shellPath ∈ places :=
  List.mem_append_right _ (List.mem_map_of_mem (mem_all setting))

theorem isPart_of_mem_places : ∀ place ∈ places,
    place ≠ [] ∧ ∀ name ∈ place, Environment.IsPart name := by
  decide +kernel

/-- No place for a setting lies in another one. -/
theorem eq_of_prefix : ∀ place ∈ places, ∀ other ∈ places, place <+: other → place = other := by
  decide +kernel

/-- No two settings share a place, in either spelling. -/
theorem eq_of_place : ∀ setting ∈ all, ∀ other ∈ all,
    setting.path = other.path ∨ setting.shellPath = other.path ∨
      setting.shellPath = other.shellPath → setting = other := by
  decide +kernel

variable {place other : List String}

theorem parse?_of_mem_places (hplace : place ∈ places) :
    PathStep.parse? (".".intercalate place) = some (place.map .name) := by
  obtain ⟨hfilled, hparts⟩ := isPart_of_mem_places place hplace
  exact PathStep.parse?_intercalate hfilled fun name hname => (hparts name hname).isName

theorem path?_of_mem_places (hplace : place ∈ places) :
    Environment.path? (Environment.variableName place) = some (".".intercalate place) := by
  obtain ⟨hfilled, hparts⟩ := isPart_of_mem_places place hplace
  exact Environment.path?_variableName hfilled hparts

theorem intercalate_inj (hplace : place ∈ places) (hother : other ∈ places)
    (h : ".".intercalate place = ".".intercalate other) : place = other := by
  have hsteps : place.map PathStep.name = other.map PathStep.name :=
    Option.some_inj.mp
      ((parse?_of_mem_places hplace).symm.trans (h ▸ parse?_of_mem_places hother))
  exact List.map_injective_iff.mpr (fun _ _ => PathStep.name.inj) hsteps

theorem variableName_inj (hplace : place ∈ places) (hother : other ∈ places)
    (h : Environment.variableName place = Environment.variableName other) : place = other :=
  intercalate_inj hplace hother (Option.some_inj.mp
    ((path?_of_mem_places hplace).symm.trans (h ▸ path?_of_mem_places hother)))

end NodeSetting

/-! ## Settings in an environment -/

namespace Environment

open NodeSetting (places path?_of_mem_places)

theorem ofText_ne_table (text : String) (entries : List (String × Setting)) :
    ofText text ≠ .table entries := by
  rw [ofText]
  split
  next => exact Setting.noConfusion
  next =>
    split
    next => exact Setting.noConfusion
    next => split <;> exact Setting.noConfusion

/-- Each variable has a name of its own, and those that hold settings are named for settings of a
node. -/
structure IsTidy (environment : List (String × String)) : Prop where
  distinct : (environment.map (·.1)).Nodup
  known : ∀ entry ∈ environment, path? entry.1 = none ∨
    ∃ place ∈ places, entry.1 = variableName place

/-- The settings in the environment, one for each variable that holds one. -/
def assigned (environment : List (String × String)) : List (String × Setting) :=
  environment.filterMap fun entry => (path? entry.1).map fun path => (path, ofText entry.2)

variable {environment : List (String × String)} {name text : String} {place : List String}

theorem IsTidy.tail {entry : String × String} (h : IsTidy (entry :: environment)) :
    IsTidy environment :=
  ⟨(List.nodup_cons.mp h.distinct).2, (List.forall_mem_cons.mp h.known).2⟩

theorem assigned_skip (h : path? name = none) :
    assigned ((name, text) :: environment) = assigned environment := by
  simp [assigned, h]

theorem assigned_cons (hplace : place ∈ places) :
    assigned ((variableName place, text) :: environment) =
      (".".intercalate place, ofText text) :: assigned environment := by
  simp [assigned, path?_of_mem_places hplace]

theorem IsTidy.exists_place (h : IsTidy environment) (hname : name ∈ environment.map (·.1))
    {path : String} (hpath : path? name = some path) :
    ∃ place ∈ places, name = variableName place ∧ path = ".".intercalate place := by
  obtain ⟨entry, hentry, rfl⟩ := List.mem_map.mp hname
  rcases h.known entry hentry with hnone | ⟨place, hplace, hentryName⟩
  · cases hnone.symm.trans hpath
  · refine ⟨place, hplace, hentryName, Option.some_inj.mp ?_⟩
    rw [← hpath, hentryName, path?_of_mem_places hplace]

/-- Variables with different names hold settings with different paths. -/
theorem IsTidy.nodup_assigned (h : IsTidy environment) :
    ((assigned environment).map (·.1)).Nodup := by
  have hpaths : (assigned environment).map (·.1) =
      (environment.map (·.1)).filterMap path? := by
    simp [assigned, List.map_filterMap, List.filterMap_map, Function.comp_def]
  rw [hpaths, List.Nodup, List.pairwise_filterMap]
  refine h.distinct.imp_of_mem fun hname hother hne path hpath otherPath hotherPath heq => hne ?_
  obtain ⟨place, hplace, rfl, hfirst⟩ := h.exists_place hname hpath
  obtain ⟨other, hotherPlace, rfl, hsecond⟩ := h.exists_place hother hotherPath
  rw [NodeSetting.intercalate_inj hplace hotherPlace (hfirst.symm.trans (heq.trans hsecond))]

/-- Adds the setting that a variable holds, if it holds one. -/
def add (setting : Setting) (entry : String × String) : Setting :=
  match path? entry.1 with
  | none => setting
  | some path => .table (Setting.changeEntry (fun _ => ofText entry.2) path setting.entries)

theorem foldl_add (old : List (String × Setting))
    (h : ((old ++ assigned environment).map (·.1)).Nodup) :
    environment.foldl add (.table old) = .table (old ++ assigned environment) := by
  induction environment generalizing old with
  | nil => simp [assigned]
  | cons entry rest ih =>
      obtain ⟨name, text⟩ := entry
      rw [List.foldl_cons, add]
      cases hpath : path? name with
      | none =>
          rw [assigned_skip hpath] at h ⊢
          exact ih old h
      | some path =>
          have hassigned : assigned ((name, text) :: rest) =
              (path, ofText text) :: assigned rest := by simp [assigned, hpath]
          have hsplit : old ++ assigned ((name, text) :: rest) =
              (old ++ [(path, ofText text)]) ++ assigned rest := by simp [hassigned]
          have hfresh : path ∉ old.map (·.1) := not_mem_of_nodup_append_cons (hassigned ▸ h)
          rw [hsplit] at h ⊢
          simpa [Setting.changeEntry_of_not_mem _ hfresh] using ih _ h

/-- The settings are those of the variables one by one. -/
theorem IsTidy.settings_eq (h : IsTidy environment) :
    settings environment = .table (assigned environment) :=
  foldl_add [] h.nodup_assigned

/-! ## Over other settings -/

/-- The settings in an environment laid over others. -/
def lay (root : Setting) (environment : List (String × String)) : Setting :=
  (assigned environment).foldl (fun root entry => Setting.put entry.1 entry.2 root) root

variable {root : Setting} {other : List String}

theorem lay_skip (h : path? name = none) :
    lay root ((name, text) :: environment) = lay root environment := by
  rw [lay, assigned_skip h, lay]

theorem lay_cons (hplace : place ∈ places) :
    lay root ((variableName place, text) :: environment) =
      lay (Setting.changeAt (fun _ => ofText text) (place.map .name) root) environment := by
  have hmerge : Setting.merge (ofText text) = fun _ => ofText text :=
    funext (Setting.merge_of_ne_table (ofText_ne_table text))
  rw [lay, assigned_cons hplace, List.foldl_cons, Setting.put,
    NodeSetting.parse?_of_mem_places hplace, Option.getD_some, hmerge, lay]

/-- At the place of a setting stands what its variable holds, and what stood there if there is
none. -/
theorem IsTidy.at?_lay (h : IsTidy environment) (hplace : place ∈ places) (root : Setting) :
    (lay root environment).at? place =
      ((environment.lookup (variableName place)).map ofText).or (root.at? place) := by
  induction environment generalizing root with
  | nil => rfl
  | cons entry rest ih =>
      obtain ⟨name, text⟩ := entry
      rcases h.known _ List.mem_cons_self with hnone | ⟨other, hother, hname⟩
      · have hne : variableName place ≠ name := by
          rintro rfl
          cases hnone.symm.trans (path?_of_mem_places hplace)
        rw [lay_skip hnone, ih h.tail, lookup_cons_of_ne hne]
      · obtain rfl : name = variableName other := hname
        rw [lay_cons hother, ih h.tail]
        by_cases heq : place = other
        · subst heq
          have hrest : rest.lookup (variableName place) = none :=
            lookup_eq_none_iff_not_mem.mpr (List.nodup_cons.mp h.distinct).1
          simp [hrest, Setting.at?_changeAt]
        · have hne : variableName place ≠ variableName other :=
            fun hsame => heq (NodeSetting.variableName_inj hplace hother hsame)
          rw [lookup_cons_of_ne hne, Setting.at?_changeAt_of_apart]
          · exact fun habove => heq (NodeSetting.eq_of_prefix _ hother _ hplace habove).symm
          · exact fun hbelow => heq (NodeSetting.eq_of_prefix _ hplace _ hother hbelow)

/-- Nothing but tables comes to stand above the places of settings. -/
theorem isSectioned_changeAt (hplace : place ∈ places) (hroot : root.IsSectioned)
    (change : Setting → Setting) :
    (Setting.changeAt change (place.map .name) root).IsSectioned := by
  intro setting above habove hne there hthere
  have hnot : ¬place <+: above := by
    intro hbelow
    have hsame : place = setting.path :=
      NodeSetting.eq_of_prefix _ hplace _ setting.path_mem_places (hbelow.trans habove)
    exact hne (habove.eq_of_length_le (hsame ▸ hbelow).length_le)
  by_cases hinside : above <+: place
  · have hdifferent : above ≠ place := by
      rintro rfl
      exact hnot List.prefix_rfl
    obtain ⟨entries, htable⟩ := Setting.at?_changeAt_of_above hinside hdifferent change root
    exact ⟨entries, Option.some_inj.mp (hthere.symm.trans htable)⟩
  · rw [Setting.at?_changeAt_of_apart hnot hinside] at hthere
    exact hroot setting above habove hne there hthere

theorem IsTidy.isSectioned_lay (h : IsTidy environment) (hroot : root.IsSectioned) :
    (lay root environment).IsSectioned := by
  induction environment generalizing root with
  | nil => exact hroot
  | cons entry rest ih =>
      obtain ⟨name, text⟩ := entry
      rcases h.known _ List.mem_cons_self with hnone | ⟨other, hother, hname⟩
      · rw [lay_skip hnone]
        exact ih h.tail hroot
      · obtain rfl : name = variableName other := hname
        rw [lay_cons hother]
        exact ih h.tail (isSectioned_changeAt hother hroot _)

/-- Above the places of settings stands what stood there, or a table with what a variable holds. -/
theorem IsTidy.at?_lay_ne_none_iff (h : IsTidy environment) {above : List String}
    (habove : ∀ place ∈ places, ¬place <+: above) (root : Setting) :
    (lay root environment).at? above ≠ none ↔ root.at? above ≠ none ∨
      ∃ place ∈ places, above <+: place ∧ environment.lookup (variableName place) ≠ none := by
  induction environment generalizing root with
  | nil => simp [lay, assigned]
  | cons entry rest ih =>
      obtain ⟨name, text⟩ := entry
      rcases h.known _ List.mem_cons_self with hnone | ⟨other, hother, hname⟩
      · have hlookup : ∀ place ∈ places,
            ((name, text) :: rest).lookup (variableName place) =
              rest.lookup (variableName place) := by
          intro place hplace
          refine lookup_cons_of_ne ?_ _ _
          rintro rfl
          cases hnone.symm.trans (path?_of_mem_places hplace)
        rw [lay_skip hnone, ih h.tail]
        refine or_congr_right (exists_congr fun place => and_congr_right fun hplace => ?_)
        rw [hlookup place hplace]
      · obtain rfl : name = variableName other := hname
        rw [lay_cons hother, ih h.tail]
        by_cases hinside : above <+: other
        · have hdifferent : above ≠ other := by
            rintro rfl
            exact habove _ hother List.prefix_rfl
          obtain ⟨entries, htable⟩ :=
            Setting.at?_changeAt_of_above hinside hdifferent (fun _ => ofText text) root
          refine iff_of_true (.inl (by simp [htable])) (.inr ⟨other, hother, hinside, ?_⟩)
          simp
        · rw [Setting.at?_changeAt_of_apart (habove other hother) hinside]
          refine or_congr_right (exists_congr fun place => and_congr_right fun hplace =>
            and_congr_right fun hbelow => ?_)
          have hne : variableName place ≠ variableName other := by
            intro hsame
            exact hinside (NodeSetting.variableName_inj hplace hother hsame ▸ hbelow)
          rw [lookup_cons_of_ne hne]

end Environment

/-! ## Loading -/

namespace NodeSetting

theorem not_prefix_store : ∀ place ∈ places, ¬place <+: ["store"] := by decide +kernel

/-- Only the place of the database, in either spelling, lies in the section for it. -/
theorem eq_of_store_prefix : ∀ place ∈ places, ["store"] <+: place →
    place = dbPath.path ∨ place = dbPath.shellPath := by
  decide +kernel

end NodeSetting

namespace NodeConfig

variable {environment : List (String × String)} {settings : Setting}

theorem placesStore_lay_iff (h : Environment.IsTidy environment) :
    (Environment.lay settings environment).PlacesStore ↔
      (settings.at? ["store"] ≠ none ∨
          environment.lookup NodeSetting.dbPath.variableName ≠ none ∨
          environment.lookup NodeSetting.dbPath.shellVariableName ≠ none →
        (Environment.lay settings environment).at? NodeSetting.dbPath.path ≠ none) := by
  rw [Setting.PlacesStore, h.at?_lay_ne_none_iff NodeSetting.not_prefix_store]
  refine imp_congr_left (or_congr_right ⟨?_, ?_⟩)
  · rintro ⟨place, hplace, hstore, hlookup⟩
    rcases NodeSetting.eq_of_store_prefix place hplace hstore with rfl | rfl
    · exact .inl hlookup
    · exact .inr hlookup
  · rintro (hlookup | hlookup)
    · exact ⟨_, NodeSetting.path_mem_places .dbPath, by decide, hlookup⟩
    · exact ⟨_, NodeSetting.shellPath_mem_places .dbPath, by decide, hlookup⟩

theorem placesStore_lay (h : Environment.IsTidy environment) (hstore : settings.PlacesStore)
    (hshell : environment.lookup NodeSetting.dbPath.shellVariableName = none) :
    (Environment.lay settings environment).PlacesStore := by
  rw [placesStore_lay_iff h, h.at?_lay (NodeSetting.path_mem_places .dbPath)]
  rintro (hfile | hvariable | hother)
  · have hplace := hstore hfile
    simp [Option.or_eq_none_iff, hplace]
  · have hlookup : environment.lookup (Environment.variableName NodeSetting.dbPath.path) ≠ none :=
      hvariable
    simp [Option.or_eq_none_iff, hlookup]
  · exact absurd hshell hother

/-- The settings are those in the environment laid over those in the file. -/
theorem load_eq {files : List SettingsFile} {file : SettingsFile} {format : SettingsFile.Format}
    {name path : String} (hfind : SettingsFile.find? files name = some (file, format))
    (hread : SettingsFile.read? file.content format = some settings)
    (hplain : settings.HasPlainNames) (h : Environment.IsTidy environment) :
    load files name path environment =
      (Setting.lenient.node? (Environment.lay settings environment)).elim (.error .unfit) .ok := by
  have hcombine : combine [settings, Environment.settings environment] =
      Environment.lay settings environment := by
    rw [h.settings_eq]
    exact congrArg (Setting.overlay · (.table (Environment.assigned environment)))
      (combine_singleton hread hplain)
  simp only [load, hfind, Option.bind_some, hread, hcombine]
  cases Setting.lenient.node? (Environment.lay settings environment) <;> rfl

end NodeConfig

end LogRelay
