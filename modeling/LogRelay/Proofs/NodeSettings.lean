import LogRelay.Proofs.SettingPlaces

/-!
# The settings of a node, one by one

Each setting of a node has a place in a configuration (`NodeSetting.path`) and a kind of values.
Where nothing but tables stands above these places (`Setting.IsSectioned`), the settings of a
node are read one by one, each from its own place (`Setting.node?_eq_some_iff`).  Only the place
of the database makes a difference to more than itself: where there is a section for the
database, it has to be there.
-/

namespace LogRelay

/-- A kind of values that settings have. -/
inductive SettingKind where
  | count
  | factor
  | text
  /-- A text that may be missing. -/
  | optionalText
  | format
  | output
deriving DecidableEq

namespace SettingKind

/-- The values of a kind. -/
def Value : SettingKind → Type
  | count => UInt64
  | factor => Float
  | text => String
  | optionalText => Option String
  | format => LogFormat
  | output => LogOutput

/-- Reads a value of a kind. -/
def read? : (kind : SettingKind) → Setting → Option kind.Value
  | count => Setting.lenient.count?
  | factor => Setting.lenient.factor?
  | text => Setting.lenient.text?
  | optionalText => Setting.lenient.optionalText?
  | format => Setting.lenient.format?
  | output => Setting.lenient.output?

end SettingKind

/-- A setting of a node. -/
inductive NodeSetting where
  | depth
  | requestTimeoutSecs
  | createTimeoutSecs
  | debounceMillis
  | initialMillis
  | maxMillis
  | multiplier
  | commandBuffer
  | logBuffer
  | dbPath
  | level
  | directives
  | format
  | output
  | filePath
deriving DecidableEq

namespace NodeSetting

/-- All settings. -/
def all : List NodeSetting :=
  [depth, requestTimeoutSecs, createTimeoutSecs, debounceMillis, initialMillis, maxMillis,
    multiplier, commandBuffer, logBuffer, dbPath, level, directives, format, output, filePath]

theorem mem_all (setting : NodeSetting) : setting ∈ all := by
  cases setting <;> decide

/-- The names of the sections that a setting stands in, and its own. -/
def path : NodeSetting → List String
  | depth => ["broadcaster", "backfill", "depth"]
  | requestTimeoutSecs => ["broadcaster", "backfill", "request-timeout-secs"]
  | createTimeoutSecs => ["broadcaster", "subscription", "create-timeout-secs"]
  | debounceMillis => ["broadcaster", "subscription", "debounce-millis"]
  | initialMillis => ["broadcaster", "retry", "initial-backoff-millis"]
  | maxMillis => ["broadcaster", "retry", "max-backoff-millis"]
  | multiplier => ["broadcaster", "retry", "multiplier"]
  | commandBuffer => ["broadcaster", "channels", "command-buffer"]
  | logBuffer => ["broadcaster", "channels", "log-buffer"]
  | dbPath => ["store", "db-path"]
  | level => ["log", "level"]
  | directives => ["log", "directives"]
  | format => ["log", "format"]
  | output => ["log", "output"]
  | filePath => ["log", "file-path"]

/-- The kind of the values of a setting. -/
def kind : NodeSetting → SettingKind
  | multiplier => .factor
  | dbPath | level => .text
  | directives | filePath => .optionalText
  | format => .format
  | output => .output
  | _ => .count

/-- The values of a setting. -/
abbrev Value (setting : NodeSetting) : Type := setting.kind.Value

end NodeSetting

namespace NodeConfig

/-- The value of a setting. -/
def value (config : NodeConfig) : (setting : NodeSetting) → setting.Value
  | .depth => config.broadcaster.backfill.depth
  | .requestTimeoutSecs => config.broadcaster.backfill.requestTimeoutSecs
  | .createTimeoutSecs => config.broadcaster.subscription.createTimeoutSecs
  | .debounceMillis => config.broadcaster.subscription.debounceMillis
  | .initialMillis => config.broadcaster.retry.initialMillis
  | .maxMillis => config.broadcaster.retry.maxMillis
  | .multiplier => config.broadcaster.retry.multiplier
  | .commandBuffer => config.broadcaster.channels.commandBuffer
  | .logBuffer => config.broadcaster.channels.logBuffer
  | .dbPath => config.store.dbPath
  | .level => config.log.level
  | .directives => config.log.directives
  | .format => config.log.format
  | .output => config.log.output
  | .filePath => config.log.filePath

/-- The settings with the given values. -/
def ofValues (value : (setting : NodeSetting) → setting.Value) : NodeConfig where
  broadcaster := {
    backfill := ⟨value .depth, value .requestTimeoutSecs⟩
    subscription := ⟨value .createTimeoutSecs, value .debounceMillis⟩
    retry := ⟨value .initialMillis, value .maxMillis, value .multiplier⟩
    channels := ⟨value .commandBuffer, value .logBuffer⟩ }
  store := ⟨value .dbPath⟩
  log := ⟨value .level, value .directives, value .format, value .output, value .filePath⟩

@[simp] theorem value_ofValues (value : (setting : NodeSetting) → setting.Value)
    (setting : NodeSetting) : (ofValues value).value setting = value setting := by
  cases setting <;> rfl

/-- Nothing but the values of the settings makes a difference. -/
theorem ofValues_value (config : NodeConfig) : ofValues config.value = config := rfl

end NodeConfig

namespace NodeSetting

/-- The value of a setting where nothing else is said. -/
def default (setting : NodeSetting) : setting.Value := ({} : NodeConfig).value setting

/-- Reads a setting from its place. -/
def read? (setting : NodeSetting) (root : Setting) : Option setting.Value :=
  Field.withDefault setting.default setting.kind.read? (root.at? setting.path)

end NodeSetting

namespace Setting

/-! ## Sections -/

theorem at?_append (place rest : List String) (root : Setting) :
    root.at? (place ++ rest) = (root.at? place).bind (at? rest) := by
  induction place generalizing root with
  | nil => rfl
  | cons name place ih =>
      rw [List.cons_append, at?, at?, Option.bind_assoc]
      exact congrArg _ (funext ih)

@[simp] theorem record?_table (names : List String) (entries : List (String × Setting)) :
    lenient.record? names (table entries) = some (names.map fun name => entries.lookup name) := rfl

/-- Nothing but a table stands above the place of a setting. -/
def IsSectioned (root : Setting) : Prop :=
  ∀ (setting : NodeSetting) (place : List String), place <+: setting.path →
    place ≠ setting.path → ∀ there, root.at? place = some there → ∃ entries, there = table entries

variable {root : Setting} {place : List String} {name : String}
  {entries : List (String × Setting)}

theorem IsSectioned.cases (h : root.IsSectioned) (setting : NodeSetting) (place : List String)
    (hplace : place <+: setting.path) (hne : place ≠ setting.path) :
    root.at? place = none ∨ ∃ entries, root.at? place = some (table entries) := by
  cases hthere : root.at? place with
  | none => exact .inl rfl
  | some there =>
      obtain ⟨entries, rfl⟩ := h setting place hplace hne there hthere
      exact .inr ⟨entries, rfl⟩

theorem at?_of_none (hplace : root.at? place = none) (name : String) :
    root.at? (place ++ [name]) = none := by
  rw [at?_append, hplace]
  rfl

theorem at?_of_table (hplace : root.at? place = some (table entries)) (name : String) :
    root.at? (place ++ [name]) = entries.lookup name := by
  simp [at?_append, hplace, at?]

theorem read?_of_none (hplace : root.at? place = none) (setting : NodeSetting)
    (hpath : setting.path = place ++ [name]) : setting.read? root = some setting.default := by
  rw [NodeSetting.read?, hpath, at?_of_none hplace, Field.withDefault]

theorem read?_of_table (hplace : root.at? place = some (table entries)) (setting : NodeSetting)
    (hpath : setting.path = place ++ [name]) :
    setting.read? root =
      Field.withDefault setting.default setting.kind.read? (entries.lookup name) := by
  rw [NodeSetting.read?, hpath, at?_of_table hplace]

attribute [ext] BackfillConfig SubscriptionConfig RetryConfig ChannelConfig RelayConfig StoreConfig
  LogConfig NodeConfig

variable {config : NodeConfig}

theorem backfill?_eq_some_iff (h : root.IsSectioned) :
    Field.withDefault {} lenient.backfill? (root.at? ["broadcaster", "backfill"]) =
        some config.broadcaster.backfill ↔
      NodeSetting.depth.read? root = some (config.value .depth) ∧
        NodeSetting.requestTimeoutSecs.read? root = some (config.value .requestTimeoutSecs) := by
  rcases h.cases .depth ["broadcaster", "backfill"] (by decide) (by decide) with
    hplace | ⟨entries, hplace⟩
  · rw [hplace, read?_of_none hplace .depth rfl, read?_of_none hplace .requestTimeoutSecs rfl]
    simp only [Field.withDefault, Option.some.injEq]
    exact BackfillConfig.ext_iff
  · rw [hplace, Field.withDefault.eq_2, SettingNotation.backfill?,
      read?_of_table hplace .depth rfl, read?_of_table hplace .requestTimeoutSecs rfl]
    simp only [record?_table, List.map_cons, List.map_nil, Option.pure_def, Option.bind_eq_bind,
      Option.bind_some, Option.bind_eq_some_iff, Option.some.injEq, ↓existsAndEq, and_true,
      BackfillConfig.ext_iff]
    exact Iff.rfl

theorem subscription?_eq_some_iff (h : root.IsSectioned) :
    Field.withDefault {} lenient.subscription? (root.at? ["broadcaster", "subscription"]) =
        some config.broadcaster.subscription ↔
      NodeSetting.createTimeoutSecs.read? root = some (config.value .createTimeoutSecs) ∧
        NodeSetting.debounceMillis.read? root = some (config.value .debounceMillis) := by
  rcases h.cases .createTimeoutSecs ["broadcaster", "subscription"] (by decide) (by decide) with
    hplace | ⟨entries, hplace⟩
  · rw [hplace, read?_of_none hplace .createTimeoutSecs rfl,
      read?_of_none hplace .debounceMillis rfl]
    simp only [Field.withDefault, Option.some.injEq]
    exact SubscriptionConfig.ext_iff
  · rw [hplace, Field.withDefault.eq_2, SettingNotation.subscription?,
      read?_of_table hplace .createTimeoutSecs rfl, read?_of_table hplace .debounceMillis rfl]
    simp only [record?_table, List.map_cons, List.map_nil, Option.pure_def, Option.bind_eq_bind,
      Option.bind_some, Option.bind_eq_some_iff, Option.some.injEq, ↓existsAndEq, and_true,
      SubscriptionConfig.ext_iff]
    exact Iff.rfl

theorem retry?_eq_some_iff (h : root.IsSectioned) :
    Field.withDefault {} lenient.retry? (root.at? ["broadcaster", "retry"]) =
        some config.broadcaster.retry ↔
      NodeSetting.initialMillis.read? root = some (config.value .initialMillis) ∧
        NodeSetting.maxMillis.read? root = some (config.value .maxMillis) ∧
        NodeSetting.multiplier.read? root = some (config.value .multiplier) := by
  rcases h.cases .initialMillis ["broadcaster", "retry"] (by decide) (by decide) with
    hplace | ⟨entries, hplace⟩
  · rw [hplace, read?_of_none hplace .initialMillis rfl, read?_of_none hplace .maxMillis rfl,
      read?_of_none hplace .multiplier rfl]
    simp only [Field.withDefault, Option.some.injEq]
    exact RetryConfig.ext_iff
  · rw [hplace, Field.withDefault.eq_2, SettingNotation.retry?,
      read?_of_table hplace .initialMillis rfl, read?_of_table hplace .maxMillis rfl,
      read?_of_table hplace .multiplier rfl]
    simp only [record?_table, List.map_cons, List.map_nil, Option.pure_def, Option.bind_eq_bind,
      Option.bind_some, Option.bind_eq_some_iff, Option.some.injEq, ↓existsAndEq, and_true,
      RetryConfig.ext_iff]
    exact Iff.rfl

theorem channels?_eq_some_iff (h : root.IsSectioned) :
    Field.withDefault {} lenient.channels? (root.at? ["broadcaster", "channels"]) =
        some config.broadcaster.channels ↔
      NodeSetting.commandBuffer.read? root = some (config.value .commandBuffer) ∧
        NodeSetting.logBuffer.read? root = some (config.value .logBuffer) := by
  rcases h.cases .commandBuffer ["broadcaster", "channels"] (by decide) (by decide) with
    hplace | ⟨entries, hplace⟩
  · rw [hplace, read?_of_none hplace .commandBuffer rfl, read?_of_none hplace .logBuffer rfl]
    simp only [Field.withDefault, Option.some.injEq]
    exact ChannelConfig.ext_iff
  · rw [hplace, Field.withDefault.eq_2, SettingNotation.channels?,
      read?_of_table hplace .commandBuffer rfl, read?_of_table hplace .logBuffer rfl]
    simp only [record?_table, List.map_cons, List.map_nil, Option.pure_def, Option.bind_eq_bind,
      Option.bind_some, Option.bind_eq_some_iff, Option.some.injEq, ↓existsAndEq, and_true,
      ChannelConfig.ext_iff]
    exact Iff.rfl

theorem log?_eq_some_iff (h : root.IsSectioned) :
    Field.withDefault {} lenient.log? (root.at? ["log"]) = some config.log ↔
      NodeSetting.level.read? root = some (config.value .level) ∧
        NodeSetting.directives.read? root = some (config.value .directives) ∧
        NodeSetting.format.read? root = some (config.value .format) ∧
        NodeSetting.output.read? root = some (config.value .output) ∧
        NodeSetting.filePath.read? root = some (config.value .filePath) := by
  rcases h.cases .level ["log"] (by decide) (by decide) with hplace | ⟨entries, hplace⟩
  · rw [hplace, read?_of_none hplace .level rfl, read?_of_none hplace .directives rfl,
      read?_of_none hplace .format rfl, read?_of_none hplace .output rfl,
      read?_of_none hplace .filePath rfl]
    simp only [Field.withDefault, Option.some.injEq]
    exact LogConfig.ext_iff
  · rw [hplace, Field.withDefault.eq_2, SettingNotation.log?,
      read?_of_table hplace .level rfl, read?_of_table hplace .directives rfl,
      read?_of_table hplace .format rfl, read?_of_table hplace .output rfl,
      read?_of_table hplace .filePath rfl]
    simp only [record?_table, List.map_cons, List.map_nil, Option.pure_def, Option.bind_eq_bind,
      Option.bind_some, Option.bind_eq_some_iff, Option.some.injEq, ↓existsAndEq, and_true,
      LogConfig.ext_iff]
    exact Iff.rfl

/-- A section for the database says where it is. -/
def PlacesStore (root : Setting) : Prop :=
  root.at? ["store"] ≠ none → root.at? NodeSetting.dbPath.path ≠ none

theorem store?_eq_some_iff (h : root.IsSectioned) :
    Field.withDefault {} lenient.store? (root.at? ["store"]) = some config.store ↔
      root.PlacesStore ∧ NodeSetting.dbPath.read? root = some (config.value .dbPath) := by
  rcases h.cases .dbPath ["store"] (by decide) (by decide) with hplace | ⟨entries, hplace⟩
  · rw [PlacesStore, hplace, read?_of_none hplace .dbPath rfl]
    simp only [Field.withDefault, Option.some.injEq]
    exact StoreConfig.ext_iff.trans (and_iff_right fun h => absurd rfl h).symm
  · have hinner : root.at? NodeSetting.dbPath.path = entries.lookup "db-path" :=
      at?_of_table hplace "db-path"
    rw [PlacesStore, hinner, hplace, Field.withDefault.eq_2, SettingNotation.store?,
      read?_of_table hplace .dbPath rfl]
    cases hvalue : entries.lookup "db-path" with
    | none => simp [Field.required, hvalue]
    | some value =>
        simp only [Field.required, hvalue, record?_table, List.map_cons, List.map_nil,
          Option.pure_def, Option.bind_eq_bind, Option.bind_some, Option.bind_eq_some_iff,
          Option.some.injEq, ↓existsAndEq, and_true, StoreConfig.ext_iff, ne_eq, reduceCtorEq,
          not_false_eq_true, imp_self, true_and]
        exact Iff.rfl

theorem relay?_eq_some_iff (h : root.IsSectioned) :
    Field.withDefault {} lenient.relay? (root.at? ["broadcaster"]) = some config.broadcaster ↔
      Field.withDefault {} lenient.backfill? (root.at? ["broadcaster", "backfill"]) =
          some config.broadcaster.backfill ∧
        Field.withDefault {} lenient.subscription? (root.at? ["broadcaster", "subscription"]) =
          some config.broadcaster.subscription ∧
        Field.withDefault {} lenient.retry? (root.at? ["broadcaster", "retry"]) =
          some config.broadcaster.retry ∧
        Field.withDefault {} lenient.channels? (root.at? ["broadcaster", "channels"]) =
          some config.broadcaster.channels := by
  rcases h.cases .depth ["broadcaster"] (by decide) (by decide) with hplace | ⟨entries, hplace⟩
  · have hinner (name : String) : root.at? ["broadcaster", name] = none := at?_of_none hplace name
    simp only [hplace, hinner, Field.withDefault, Option.some.injEq]
    exact RelayConfig.ext_iff
  · have hinner (name : String) : root.at? ["broadcaster", name] = entries.lookup name :=
      at?_of_table hplace name
    rw [hplace, Field.withDefault.eq_2, SettingNotation.relay?]
    simp [hinner, Option.bind_eq_some_iff, RelayConfig.ext_iff]

/-- The settings of a node are read one by one, each from its own place. -/
theorem node?_eq_some_iff (h : root.IsSectioned) :
    lenient.node? root = some config ↔
      root.PlacesStore ∧
        ∀ setting : NodeSetting, setting.read? root = some (config.value setting) := by
  rcases h.cases .depth [] (by decide) (by decide) with hnone | ⟨entries, htable⟩
  · cases hnone
  · obtain rfl : root = table entries := Option.some_inj.mp htable
    have hinner (name : String) : entries.lookup name = (table entries).at? [name] := by simp [at?]
    have hsections : lenient.node? (table entries) = some config ↔
        Field.withDefault {} lenient.relay? ((table entries).at? ["broadcaster"]) =
            some config.broadcaster ∧
          Field.withDefault {} lenient.store? ((table entries).at? ["store"]) = some config.store ∧
          Field.withDefault {} lenient.log? ((table entries).at? ["log"]) = some config.log := by
      rw [SettingNotation.node?]
      simp [hinner, Option.bind_eq_some_iff, NodeConfig.ext_iff]
    rw [hsections, relay?_eq_some_iff h, backfill?_eq_some_iff h, subscription?_eq_some_iff h,
      retry?_eq_some_iff h, channels?_eq_some_iff h, store?_eq_some_iff h, log?_eq_some_iff h]
    constructor
    · rintro ⟨⟨⟨_, _⟩, ⟨_, _⟩, ⟨_, _, _⟩, _, _⟩, ⟨hplaces, _⟩, _, _, _, _, _⟩
      refine ⟨hplaces, fun setting => ?_⟩
      cases setting <;> assumption
    · rintro ⟨hplaces, hread⟩
      exact ⟨⟨⟨hread _, hread _⟩, ⟨hread _, hread _⟩, ⟨hread _, hread _, hread _⟩,
          hread _, hread _⟩,
        ⟨hplaces, hread _⟩, hread _, hread _, hread _, hread _, hread _⟩

/-- The settings can be read if each of them can and the database has a place. -/
theorem node?_eq_ofValues (h : root.IsSectioned) (hplaces : root.PlacesStore)
    {value : (setting : NodeSetting) → setting.Value}
    (hread : ∀ setting : NodeSetting, setting.read? root = some (value setting)) :
    lenient.node? root = some (.ofValues value) :=
  (node?_eq_some_iff h).mpr ⟨hplaces, fun setting => by rw [hread, NodeConfig.value_ofValues]⟩

end Setting

end LogRelay
