import LogRelay.Proofs.MarkerStores
import LogRelay.Settings.Path
import Mathlib.Data.List.Infix

/-!
# What stands at a place

A place in nested tables is named by the names on the way to it (`Setting.at?`).  Changing what
stands at one place (`Setting.changeAt`) changes nothing at a place that lies apart from it,
neither above nor below, and makes a table of everything above it.

A text that holds such names with points between them is read as the path to the place
(`PathStep.parse?_intercalate`).
-/

namespace LogRelay

/-! ## Names with points between them -/

/-- The names with the separator before each of them. -/
def trail (separator : String) (names : List String) : List Char :=
  names.flatMap fun name => separator.toList ++ name.toList

theorem toList_intercalate_cons (separator name : String) (rest : List String) :
    (separator.intercalate (name :: rest)).toList = name.toList ++ trail separator rest := by
  rw [String.toList_intercalate]
  induction rest generalizing name with
  | nil => simp [trail]
  | cons other rest ih =>
      rw [List.map_cons, List.map_cons, List.intercalate_cons_cons, ← List.map_cons, ih]
      simp [trail]

namespace PathStep

/-- The text can stand between the points of a path. -/
structure IsName (name : String) : Prop where
  ne_nil : name.toList ≠ []
  parts : ∀ c ∈ name.toList, isNamePart c = true

variable {name : String}

/-- A name is read up to what cannot stand in a name. -/
theorem name?_append (h : IsName name) {rest : List Char}
    (hrest : ∀ c ∈ rest.head?, isNamePart c = false) :
    name? (name.toList ++ rest) = some (.name name, rest) := by
  have htake : (name.toList ++ rest).takeWhile isNamePart = name.toList := by
    rw [List.takeWhile_append_of_pos h.parts]
    cases rest with
    | nil => simp
    | cons c rest => simp [hrest c rfl]
  have hdrop : (name.toList ++ rest).dropWhile isNamePart = rest := by
    rw [List.dropWhile_append_of_pos h.parts]
    cases rest with
    | nil => rfl
    | cons c rest => simp [hrest c rfl]
  have hfilled : name.toList.isEmpty = false := List.isEmpty_eq_false_iff.mpr h.ne_nil
  simp [name?, htake, hdrop, hfilled]

/-- A name is read up to the next point. -/
theorem name?_append_trail (h : IsName name) (rest : List String) :
    name? (name.toList ++ trail "." rest) = some (.name name, trail "." rest) := by
  refine name?_append h ?_
  cases rest with
  | nil => simp [trail]
  | cons other rest =>
      intro c hc
      obtain rfl : '.' = c := by simpa [trail] using hc
      decide

theorem following?_trail {names : List String} (h : ∀ name ∈ names, IsName name) {fuel : Nat}
    (hfuel : (trail "." names).length ≤ fuel) :
    following? fuel (trail "." names) = some (names.map .name) := by
  induction names generalizing fuel with
  | nil => cases fuel <;> rfl
  | cons name rest ih =>
      obtain ⟨hname, hrest⟩ := List.forall_mem_cons.mp h
      have hsplit : trail "." (name :: rest) = '.' :: (name.toList ++ trail "." rest) := by
        simp [trail]
      rw [hsplit, List.length_cons, List.length_append] at hfuel
      obtain ⟨fuel, rfl⟩ := Nat.exists_eq_add_one_of_ne_zero (show fuel ≠ 0 by omega)
      have hlater : following? fuel (trail "." rest) = some (rest.map .name) :=
        ih hrest (by omega)
      rw [hsplit, following?]
      simp [name?_append_trail hname, hlater]

/-- Names with points between them are read as the path through them. -/
theorem parse?_intercalate {names : List String} (hnames : names ≠ [])
    (h : ∀ name ∈ names, IsName name) :
    parse? (".".intercalate names) = some (names.map .name) := by
  obtain ⟨name, rest, rfl⟩ := List.exists_cons_of_ne_nil hnames
  obtain ⟨hname, hrest⟩ := List.forall_mem_cons.mp h
  rw [parse?, toList_intercalate_cons]
  simp [name?_append_trail hname, following?_trail hrest Nat.le.refl]

end PathStep

namespace Setting

/-! ## Changing what stands under a name -/

@[simp] theorem entries_table (entries : List (String × Setting)) :
    (table entries).entries = entries := rfl

theorem lookup_changeEntry (change : Setting → Setting) (name other : String)
    (entries : List (String × Setting)) :
    (changeEntry change name entries).lookup other =
      if other = name then some (change ((entries.lookup name).getD nil))
      else entries.lookup other := by
  induction entries with
  | nil =>
      by_cases hother : other = name
      · simp [changeEntry, hother]
      · simp [changeEntry, lookup_cons_of_ne hother, hother]
  | cons entry rest ih =>
      obtain ⟨first, value⟩ := entry
      by_cases hfirst : first = name
      · subst hfirst
        by_cases hother : other = first
        · simp [changeEntry, hother]
        · simp [changeEntry, lookup_cons_of_ne hother, hother]
      · rw [changeEntry, if_neg hfirst]
        by_cases hother : other = first
        · subst hother
          simp [hfirst]
        · rw [lookup_cons_of_ne hother, lookup_cons_of_ne hother,
            lookup_cons_of_ne (Ne.symm hfirst), ih]

/-- What stands at a place. -/
def at? : List String → Setting → Option Setting
  | [], setting => some setting
  | name :: path, setting => (setting.entries.lookup name).bind (at? path)

variable {path other : List String} {root : Setting}

theorem at?_nil (h : path ≠ []) : nil.at? path = none := by
  cases path with
  | nil => exact absurd rfl h
  | cons name path => rfl

/-- Nothing stands inside a place where nothing stands. -/
theorem at?_getD_nil (h : path ≠ []) (setting : Option Setting) :
    (setting.getD nil).at? path = setting.bind (at? path) := by
  cases setting with
  | none => exact at?_nil h
  | some setting => rfl

/-- Only tables have something inside. -/
theorem exists_table {name : String} (h : root.at? (name :: path) ≠ none) :
    ∃ entries, root = table entries := by
  cases root with
  | table entries => exact ⟨entries, rfl⟩
  | _ => exact absurd rfl h

theorem exists_mem_of_at? {entries : List (String × Setting)} {name : String}
    (h : (table entries).at? (name :: path) ≠ none) :
    ∃ there, (name, there) ∈ entries ∧ there.at? path ≠ none := by
  obtain ⟨found, hfound⟩ := Option.ne_none_iff_exists'.mp h
  obtain ⟨there, hlookup, hthere⟩ := Option.bind_eq_some_iff.mp hfound
  obtain ⟨before, after, hentries, -⟩ := List.lookup_eq_some_iff.mp hlookup
  rw [entries_table] at hentries
  exact ⟨there, by simp [hentries], hthere ▸ Option.some_ne_none found⟩

theorem eq_nil_of_at?_text {value : String}
    (h : (text value).at? path ≠ none) : path = [] := by
  cases path with
  | nil => rfl
  | cons name path => exact absurd rfl h

theorem at?_changeAt (path : List String) (change : Setting → Setting) (root : Setting) :
    (changeAt change (path.map .name) root).at? path =
      some (change ((root.at? path).getD nil)) := by
  induction path generalizing root with
  | nil => rfl
  | cons name path ih =>
      have hinner (setting : Option Setting) : ((setting.getD nil).at? path).getD nil =
          (setting.bind (at? path)).getD nil := by
        by_cases hpath : path = []
        · subst hpath
          cases setting <;> rfl
        · rw [at?_getD_nil hpath]
      simp [changeAt, at?, lookup_changeEntry, ih, hinner]

/-- Nothing changes at a place that is neither above nor below the one that is changed. -/
theorem at?_changeAt_of_apart (habove : ¬path <+: other) (hbelow : ¬other <+: path)
    (change : Setting → Setting) (root : Setting) :
    (changeAt change (path.map .name) root).at? other = root.at? other := by
  induction path generalizing other root with
  | nil => exact absurd (List.nil_prefix) habove
  | cons name path ih =>
      cases other with
      | nil => exact absurd (List.nil_prefix) hbelow
      | cons first other =>
          by_cases hfirst : first = name
          · subst hfirst
            rw [List.cons_prefix_cons, not_and] at habove hbelow
            have hother : other ≠ [] := by
              rintro rfl
              exact hbelow rfl List.nil_prefix
            simp [changeAt, at?, lookup_changeEntry, ih (habove rfl) (hbelow rfl),
              at?_getD_nil hother]
          · simp [changeAt, at?, lookup_changeEntry, hfirst]

/-- Everything above the place that is changed is a table. -/
theorem at?_changeAt_of_above (habove : other <+: path) (hne : other ≠ path)
    (change : Setting → Setting) (root : Setting) :
    ∃ entries, (changeAt change (path.map .name) root).at? other = some (table entries) := by
  induction other generalizing path root with
  | nil =>
      obtain ⟨name, path, rfl⟩ := List.exists_cons_of_ne_nil hne.symm
      exact ⟨_, rfl⟩
  | cons first other ih =>
      cases path with
      | nil => exact absurd (List.prefix_nil.mp habove) (List.cons_ne_nil _ _)
      | cons name path =>
          obtain ⟨rfl, hrest⟩ := List.cons_prefix_cons.mp habove
          obtain ⟨inner, hinner⟩ := ih hrest (fun h => hne (h ▸ rfl))
            ((root.entries.lookup first).getD nil)
          exact ⟨inner, by simp [changeAt, at?, lookup_changeEntry, hinner]⟩

end Setting

end LogRelay
