import LogRelay.Proofs.SettingPlaces
import LogRelay.Settings.Load
import Mathlib.Data.List.Nodup

/-!
# Tables in files

A table that was read from a file has each of its names once, and so have all the tables under
its names (`Setting.IsProper`).  Hence nothing is lost when it is put where nothing stands
(`Setting.merge_nil`), and if no name of its stands for a longer path, a file is laid over
nothing as it was read (`NodeConfig.combine_singleton`).
-/

namespace LogRelay

theorem lookup_eq_none_iff_not_mem {α : Type} {name : String} {entries : List (String × α)} :
    entries.lookup name = none ↔ name ∉ entries.map (·.1) := by
  simp only [List.lookup_eq_none_iff, bne_iff_ne, List.mem_map, not_exists, not_and]
  exact forall₂_congr fun entry _ => ne_comm

theorem not_mem_of_nodup_append_cons {α : Type} {name : String} {value : α}
    {old rest : List (String × α)} (h : ((old ++ (name, value) :: rest).map (·.1)).Nodup) :
    name ∉ old.map (·.1) := by
  rw [List.map_append, List.map_cons] at h
  intro hmem
  exact (List.nodup_append.mp h).2.2 name hmem name List.mem_cons_self rfl

namespace Setting

/-- In the table, and in the tables under its names, no name stands twice.  Lists are not looked
into, since they are taken as a whole. -/
inductive IsProper : Setting → Prop
  | table {entries : List (String × Setting)} (distinct : (entries.map (·.1)).Nodup)
      (inner : ∀ entry ∈ entries, IsProper entry.2) : IsProper (.table entries)
  | other {setting : Setting} (h : ∀ entries, setting ≠ .table entries) : IsProper setting

variable {new old : List (String × Setting)} {setting : Setting} {name : String}

/-! ## Putting tables where nothing stands -/

theorem changeEntry_of_not_mem (change : Setting → Setting) (h : name ∉ old.map (·.1)) :
    changeEntry change name old = old ++ [(name, change nil)] := by
  induction old with
  | nil => rfl
  | cons entry rest ih =>
      obtain ⟨hfirst, hrest⟩ := not_or.mp (List.mem_cons.not.mp h)
      rw [changeEntry, if_neg (Ne.symm hfirst), ih hrest, List.cons_append]

theorem mergeEntries_of_disjoint (hdistinct : ((old ++ new).map (·.1)).Nodup)
    (hnil : ∀ entry ∈ new, merge entry.2 nil = entry.2) :
    mergeEntries new old = old ++ new := by
  induction new generalizing old with
  | nil => simp [mergeEntries]
  | cons entry rest ih =>
      obtain ⟨name, value⟩ := entry
      obtain ⟨hvalue, hrest⟩ := List.forall_mem_cons.mp hnil
      have hfresh := not_mem_of_nodup_append_cons hdistinct
      have hsplit : old ++ (name, value) :: rest = (old ++ [(name, value)]) ++ rest := by simp
      rw [mergeEntries, changeEntry_of_not_mem _ hfresh, hvalue, ih (hsplit ▸ hdistinct) hrest,
        hsplit]

theorem merge_of_ne_table (h : ∀ entries, setting ≠ .table entries) (old : Setting) :
    merge setting old = setting := by
  cases setting with
  | table entries => exact absurd rfl (h entries)
  | _ => simp only [merge]

/-- Nothing is lost when a table is put where nothing stands. -/
theorem merge_nil (h : setting.IsProper) : merge setting nil = setting := by
  induction h with
  | table hdistinct _ ih =>
      rw [merge, show nil.entries = [] from rfl,
        mergeEntries_of_disjoint (by simpa using hdistinct) ih, List.nil_append]
  | other h => exact merge_of_ne_table h nil

/-! ## JSON -/

mutual

theorem isProper_ofJson : (json : Json) → (ofJson json).IsProper
  | .object members => by
      rw [ofJson]
      exact .table (isProper_ofJsonMembers members).1 (isProper_ofJsonMembers members).2
  | .null | .verbatim _ | .bool _ | .string _ | .list _ => by
      rw [ofJson]
      exact .other fun _ => Setting.noConfusion
  | .number value => by
      rw [ofJson]
      split <;> exact .other fun _ => Setting.noConfusion

theorem isProper_ofJsonMembers : (members : List (String × Json)) →
    ((ofJsonMembers members).map (·.1)).Nodup ∧
      ∀ entry ∈ ofJsonMembers members, entry.2.IsProper
  | [] => by simp [ofJsonMembers]
  | (name, value) :: rest => by
      obtain ⟨hdistinct, hinner⟩ := isProper_ofJsonMembers rest
      rw [ofJsonMembers]
      split
      next => exact ⟨hdistinct, hinner⟩
      next hnew =>
        have hfresh : name ∉ (ofJsonMembers rest).map (·.1) :=
          lookup_eq_none_iff_not_mem.mp (Option.not_isSome_iff_eq_none.mp hnew)
        exact ⟨List.nodup_cons.mpr ⟨hfresh, hdistinct⟩,
          List.forall_mem_cons.mpr ⟨isProper_ofJson value, hinner⟩⟩

end

end Setting

/-! ## TOML -/

namespace Toml

/-- What stands under a key becomes a proper value. -/
inductive Node.IsProper : Node → Prop
  | value {value : Setting} (h : value.IsProper) : IsProper (.value value)
  | table {origin : Origin} {entries : List (String × Node)}
      (distinct : (entries.map (·.1)).Nodup) (inner : ∀ entry ∈ entries, IsProper entry.2) :
      IsProper (.table origin entries)
  | tables (items : List (List (String × Node))) : IsProper (.tables items)

/-- The entries have each of their keys once, and so do the tables under them. -/
structure AreProper (entries : Entries) : Prop where
  distinct : (entries.map (·.1)).Nodup
  inner : ∀ entry ∈ entries, entry.2.IsProper

variable {entries changed : Entries} {key : String} {path : List String} {node : Node}
  {change : Entries → Option Entries}

theorem areProper_nil : AreProper [] := ⟨List.nodup_nil, by simp⟩

theorem AreProper.of_table {origin : Origin} (h : (Node.table origin entries).IsProper) :
    AreProper entries := by
  cases h with
  | table distinct inner => exact ⟨distinct, inner⟩

theorem AreProper.table (h : AreProper entries) (origin : Origin) :
    (Node.table origin entries).IsProper :=
  .table h.distinct h.inner

theorem AreProper.lookup (h : AreProper entries) (hlookup : entries.lookup key = some node) :
    node.IsProper := by
  obtain ⟨before, after, rfl, -⟩ := List.lookup_eq_some_iff.mp hlookup
  exact h.inner (key, node) (by simp)

theorem AreProper.append (h : AreProper entries) (hnew : entries.lookup key = none)
    (hnode : node.IsProper) : AreProper (entries ++ [(key, node)]) := by
  have hfresh := lookup_eq_none_iff_not_mem.mp hnew
  refine ⟨?_, fun entry hentry => ?_⟩
  · rw [List.map_append, List.map_singleton]
    refine List.nodup_append.mpr ⟨h.distinct, List.nodup_singleton key, ?_⟩
    rintro name hname _ hlast rfl
    obtain rfl : name = key := List.mem_singleton.mp hlast
    exact hfresh hname
  · rcases List.mem_append.mp hentry with hold | hlast
    · exact h.inner entry hold
    · rw [List.mem_singleton.mp hlast]
      exact hnode

theorem AreProper.replace (h : AreProper entries) (hnode : node.IsProper) :
    AreProper (replace key node entries) := by
  refine ⟨?_, fun entry hentry => ?_⟩
  · have hkeys : (Toml.replace key node entries).map (·.1) = entries.map (·.1) := by
      rw [Toml.replace, List.map_map]
      refine List.map_congr_left fun entry _ => ?_
      by_cases hkey : entry.1 = key <;> simp [hkey]
    exact hkeys ▸ h.distinct
  · obtain ⟨old, hold, rfl⟩ := List.mem_map.mp hentry
    by_cases hkey : old.1 = key
    · simpa [hkey] using hnode
    · simpa [hkey] using h.inner old hold

/-- A change leaves proper entries behind. -/
def KeepsProper (change : Entries → Option Entries) : Prop :=
  ∀ entries changed, AreProper entries → change entries = some changed → AreProper changed

theorem keepsProper_openTable? (key : String) : KeepsProper (openTable? key) := by
  intro entries changed h hopen
  rw [openTable?] at hopen
  split at hopen
  next hnew =>
    cases hopen
    exact h.append hnew (areProper_nil.table .header)
  next inner hold =>
    cases hopen
    exact h.replace ((AreProper.of_table (h.lookup hold)).table .header)
  next => cases hopen

theorem keepsProper_pushTable? (key : String) : KeepsProper (pushTable? key) := by
  intro entries changed h hpush
  rw [pushTable?] at hpush
  split at hpush
  next hnew =>
    cases hpush
    exact h.append hnew (.tables _)
  next items _ =>
    cases hpush
    exact h.replace (.tables _)
  next => cases hpush

theorem keepsProper_atHeader? (hchange : KeepsProper change) (path : List String) :
    KeepsProper (atHeader? change path) := by
  induction path with
  | nil => exact hchange
  | cons key path ih =>
      intro entries changed h hat
      rw [atHeader?] at hat
      split at hat
      next hnew =>
        obtain ⟨inner, hinner, ⟨⟩⟩ := Option.bind_eq_some_iff.mp hat
        exact h.append hnew ((ih _ _ areProper_nil hinner).table .implied)
      next origin old hold =>
        obtain ⟨inner, hinner, ⟨⟩⟩ := Option.bind_eq_some_iff.mp hat
        exact h.replace ((ih _ _ (.of_table (h.lookup hold)) hinner).table origin)
      next last earlier _ =>
        obtain ⟨inner, -, ⟨⟩⟩ := Option.bind_eq_some_iff.mp hat
        exact h.replace (.tables _)
      next => cases hat

theorem keepsProper_enter? {value : Setting} (hvalue : value.IsProper) (path : List String)
    (allowed : Bool) : KeepsProper (enter? value path allowed) := by
  induction path generalizing allowed with
  | nil => exact fun entries changed h henter => nomatch henter
  | cons key path ih =>
      intro entries changed h henter
      cases path with
      | nil =>
          rw [enter?] at henter
          split at henter
          next hnew =>
            cases henter
            rw [Bool.and_eq_true, Option.isNone_iff_eq_none] at hnew
            exact h.append hnew.2 (.value hvalue)
          next => cases henter
      | cons next path =>
          rw [enter?] at henter
          · split at henter
            next hnew =>
              obtain ⟨inner, hinner, ⟨⟩⟩ := Option.bind_eq_some_iff.mp henter
              exact h.append hnew ((ih true _ _ areProper_nil hinner).table .dotted)
            next => cases henter
            next origin old _ hold =>
              obtain ⟨inner, hinner, ⟨⟩⟩ := Option.bind_eq_some_iff.mp henter
              exact h.replace ((ih true _ _ (.of_table (h.lookup hold)) hinner).table origin)
            next last earlier _ =>
              obtain ⟨inner, -, ⟨⟩⟩ := Option.bind_eq_some_iff.mp henter
              exact h.replace (.tables _)
            next => cases henter
          · simp

/-! ### Values -/

theorem keys_entriesToSettings (entries : Entries) :
    (entriesToSettings entries).map (·.1) = entries.map (·.1) := by
  induction entries with
  | nil => rfl
  | cons entry rest ih =>
      obtain ⟨key, node⟩ := entry
      rw [entriesToSettings, List.map_cons, List.map_cons, ih]

theorem exists_of_mem_entriesToSettings {entry : String × Setting}
    (h : entry ∈ entriesToSettings entries) :
    ∃ node, (entry.1, node) ∈ entries ∧ entry.2 = node.toSetting := by
  induction entries with
  | nil => cases h
  | cons first rest ih =>
      obtain ⟨key, node⟩ := first
      rw [entriesToSettings] at h
      rcases List.mem_cons.mp h with rfl | hrest
      · exact ⟨node, by simp, rfl⟩
      · obtain ⟨node, hmem, hvalue⟩ := ih hrest
        exact ⟨node, List.mem_cons_of_mem _ hmem, hvalue⟩

theorem isProper_toSetting (h : node.IsProper) : node.toSetting.IsProper := by
  induction h with
  | value h => exact h
  | table hdistinct _ ih =>
      rw [Node.toSetting]
      refine .table (keys_entriesToSettings _ ▸ hdistinct) fun entry hentry => ?_
      obtain ⟨node, hmem, hvalue⟩ := exists_of_mem_entriesToSettings hentry
      exact hvalue ▸ ih _ hmem
  | tables items =>
      rw [Node.toSetting]
      exact .other fun _ => Setting.noConfusion

theorem AreProper.toSettings (h : AreProper entries) :
    (Setting.table (entriesToSettings entries)).IsProper :=
  isProper_toSetting (h.table .header)

theorem isProper_ofScalar? {run : List Char} {value : Setting} (h : ofScalar? run = some value) :
    value.IsProper := by
  rw [ofScalar?] at h
  split at h
  next =>
    cases h
    exact .other fun _ => Setting.noConfusion
  next =>
    split at h
    next =>
      cases h
      exact .other fun _ => Setting.noConfusion
    next =>
      simp only [Option.or_eq_some_iff, Option.map_eq_some_iff] at h
      rcases h with ⟨_, -, rfl⟩ | ⟨-, ⟨_, -, rfl⟩ | ⟨-, _, -, rfl⟩⟩ <;>
        exact .other fun _ => Setting.noConfusion

theorem isProper_scalar? {text rest : List Char} {value : Setting}
    (h : scalar? text = some (value, rest)) : value.IsProper := by
  rw [scalar?] at h
  split at h
  next =>
    cases h
    exact .other fun _ => Setting.noConfusion
  next =>
    obtain ⟨read, hread, hvalue⟩ := Option.map_eq_some_iff.mp h
    cases hvalue
    exact isProper_ofScalar? hread

/-- Values and members in braces, by induction on the fuel that both share. -/
theorem isProper_value?_and_members? (fuel : Nat) :
    (∀ room text value rest, value? fuel room text = some (value, rest) → value.IsProper) ∧
      ∀ room entries text changed rest, AreProper entries →
        members? fuel room entries text = some (changed, rest) → AreProper changed := by
  induction fuel with
  | zero =>
      refine ⟨fun room text value rest h => ?_, fun room entries text changed rest _ h => ?_⟩
      · rw [value?] at h
        · exact isProper_scalar? h
        all_goals simp
      · rw [members?] at h
        cases h
  | succ fuel ih =>
      obtain ⟨ihvalue, ihmembers⟩ := ih
      refine ⟨fun room text value rest h => ?_, fun room entries text changed rest hproper h => ?_⟩
      · rw [value?.eq_def] at h
        split at h
        next =>
          obtain ⟨⟨items, left⟩, -, ⟨⟩⟩ := Option.bind_eq_some_iff.mp h
          exact .other fun _ => Setting.noConfusion
        next heq =>
          obtain ⟨rfl⟩ := heq
          obtain ⟨⟨inner, left⟩, hinner, ⟨⟩⟩ := Option.bind_eq_some_iff.mp h
          exact (ihmembers _ _ _ _ _ areProper_nil hinner).toSettings
        next => exact isProper_scalar? h
      · rw [members?] at h
        simp only [Option.bind_eq_bind, Option.bind_eq_some_iff] at h
        obtain ⟨text, -, h⟩ := h
        split at h
        next =>
          cases h
          exact hproper
        next =>
          simp only [Option.bind_eq_some_iff] at h
          obtain ⟨⟨key, _⟩, -, _, -, _, -, _, -, ⟨value, _⟩, hvalue, inner, henter, _, -, h⟩ := h
          have hinner : AreProper inner :=
            keepsProper_enter? (ihvalue _ _ _ _ hvalue) key true _ _ hproper henter
          split at h
          next => exact ihmembers _ _ _ _ _ hinner h
          next =>
            cases h
            exact hinner
          next => cases h

/-! ### Documents -/

variable {document changed : Document}

theorem areProper_header? {change : String → Entries → Option Entries}
    (hchange : ∀ key, KeepsProper (change key)) (hproper : AreProper document.entries)
    {key : List String} (h : document.header? change key = some changed) :
    AreProper changed.entries := by
  simp only [Document.header?, Option.bind_eq_bind, Option.bind_eq_some_iff] at h
  obtain ⟨last, -, entries, hentries, ⟨⟩⟩ := h
  exact keepsProper_atHeader? (hchange last) _ _ _ hproper hentries

theorem areProper_line? (hproper : AreProper document.entries) {text rest : List Char}
    (h : document.line? text = some (changed, rest)) : AreProper changed.entries := by
  rw [Document.line?.eq_def] at h
  split at h
  · simp only [Option.bind_eq_bind, Option.bind_eq_some_iff] at h
    obtain ⟨⟨key, _⟩, -, _, -, _, -, opened, hopened, ⟨⟩⟩ := h
    exact areProper_header? keepsProper_pushTable? hproper hopened
  · simp only [Option.bind_eq_bind, Option.bind_eq_some_iff] at h
    obtain ⟨⟨key, _⟩, -, _, -, opened, hopened, ⟨⟩⟩ := h
    exact areProper_header? keepsProper_openTable? hproper hopened
  · simp only [Option.bind_eq_bind, Option.bind_eq_some_iff] at h
    obtain ⟨⟨key, _⟩, -, _, -, ⟨value, _⟩, hvalue, entries, hentries, ⟨⟩⟩ := h
    have hvalue := (isProper_value?_and_members? _).1 _ _ _ _ hvalue
    exact keepsProper_atHeader? (keepsProper_enter? hvalue key true) _ _ _ hproper hentries

theorem areProper_lines? (hproper : AreProper document.entries) {fuel : Nat} {text : List Char}
    (h : document.lines? fuel text = some changed) : AreProper changed.entries := by
  induction fuel generalizing document text with
  | zero =>
      cases h
      exact hproper
  | succ fuel ih =>
      simp only [Document.lines?, Option.bind_eq_bind, Option.bind_eq_some_iff] at h
      obtain ⟨text, -, h⟩ := h
      split at h
      next =>
        cases h
        exact hproper
      next =>
        simp only [Option.bind_eq_some_iff] at h
        obtain ⟨⟨later, _⟩, hline, _, -, h⟩ := h
        exact ih (areProper_line? hproper hline) h

theorem exists_of_parse? {text : String} {settings : Setting} (h : parse? text = some settings) :
    ∃ entries, settings = .table entries ∧ settings.IsProper := by
  simp only [parse?, Option.bind_eq_bind, Option.bind_eq_some_iff] at h
  obtain ⟨document, hlines, ⟨⟩⟩ := h
  exact ⟨_, rfl, (areProper_lines? areProper_nil hlines).toSettings⟩

end Toml

/-! ## Files -/

/-- What is read from a file is a table with each name once. -/
theorem SettingsFile.exists_of_read? {content : String} {format : Format} {settings : Setting}
    (h : read? content format = some settings) :
    ∃ entries, settings = .table entries ∧ settings.IsProper := by
  cases format with
  | toml => exact Toml.exists_of_parse? h
  | json =>
      simp only [read?, Option.bind_eq_bind, Option.bind_eq_some_iff] at h
      obtain ⟨json, -, h⟩ := h
      split at h
      next members =>
        split at h
        next =>
          cases h
          exact ⟨Setting.ofJsonMembers members, by rw [Setting.ofJson], Setting.isProper_ofJson _⟩
        next => cases h
      next => cases h

/-- No name in the table stands for anything but itself. -/
def Setting.HasPlainNames (setting : Setting) : Prop :=
  ∀ entry ∈ setting.entries, PathStep.IsName entry.1

open Setting in
/-- A file is laid over nothing as it was read. -/
theorem NodeConfig.combine_singleton {settings : Setting} {content : String}
    {format : SettingsFile.Format} (hread : SettingsFile.read? content format = some settings)
    (hplain : settings.HasPlainNames) : combine [settings] = settings := by
  obtain ⟨entries, rfl, hproper⟩ := SettingsFile.exists_of_read? hread
  have hputs (old : List (String × Setting)) (new : List (String × Setting))
      (hnames : ∀ entry ∈ new, PathStep.IsName entry.1) :
      new.foldl (fun root entry => put entry.1 entry.2 root) (table old) =
        table (mergeEntries new old) := by
    induction new generalizing old with
    | nil => simp [mergeEntries]
    | cons entry rest ih =>
        obtain ⟨hname, hrest⟩ := List.forall_mem_cons.mp hnames
        have hone : ∀ name ∈ [entry.1], PathStep.IsName name := by simpa using hname
        have hpath : PathStep.parse? entry.1 = some [.name entry.1] := by
          simpa using PathStep.parse?_intercalate (List.cons_ne_nil entry.1 []) hone
        rw [List.foldl_cons, put, hpath, mergeEntries]
        exact ih _ hrest
  have hmerged : merge (table entries) nil = table (mergeEntries entries []) := by
    rw [merge, show nil.entries = [] from rfl]
  rw [combine, List.foldl_cons, List.foldl_nil, overlay, hputs [] _ hplain, entries_table,
    ← hmerged, merge_nil hproper]

end LogRelay
