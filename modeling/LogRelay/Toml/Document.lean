import LogRelay.Toml.Scalar

/-!
# TOML documents

A document is a sequence of lines that hold a key with its value or the header of a
table.  A table is opened by its own header at most once; it may also come into being
because the header of a table inside it or a key with several parts names it.  Keys
with several parts only extend tables that were not opened by a header, and values
in braces or brackets are complete as they stand.
-/

namespace LogRelay.Toml

/-! ## Tables under construction -/

/-- How a table came into being. -/
inductive Origin where
  /-- By its own header. -/
  | header
  /-- By the header of a table inside it. -/
  | implied
  /-- By a key with several parts. -/
  | dotted
deriving DecidableEq

/-- What stands under a key. -/
inductive Node where
  | value (value : Setting)
  | table (origin : Origin) (entries : List (String × Node))
  /-- A list of tables, the last one first. -/
  | tables (items : List (List (String × Node)))

/-- The entries of a table. -/
abbrev Entries := List (String × Node)

/-- The entries with what stands under a key replaced. -/
def replace (key : String) (node : Node) (entries : Entries) : Entries :=
  entries.map fun entry => if entry.1 == key then (key, node) else entry

/-- Changes the table that a header names, where tables on the way come into being as
needed. -/
def atHeader? (change : Entries → Option Entries) : List String → Entries → Option Entries
  | [], entries => change entries
  | key :: path, entries =>
      match entries.lookup key with
      | none => do return entries ++ [(key, .table .implied (← atHeader? change path []))]
      | some (.table origin inner) => do
          return replace key (.table origin (← atHeader? change path inner)) entries
      | some (.tables (last :: earlier)) => do
          return replace key (.tables ((← atHeader? change path last) :: earlier)) entries
      | some _ => none

/-- Opens a table by its header. -/
def openTable? (key : String) (entries : Entries) : Option Entries :=
  match entries.lookup key with
  | none => some (entries ++ [(key, .table .header [])])
  | some (.table .implied inner) => some (replace key (.table .header inner) entries)
  | some _ => none

/-- Opens one more table of a list of tables by its header. -/
def pushTable? (key : String) (entries : Entries) : Option Entries :=
  match entries.lookup key with
  | none => some (entries ++ [(key, .tables [[]])])
  | some (.tables items) => some (replace key (.tables ([] :: items)) entries)
  | some _ => none

/-- Enters a value under a key.  `allowed` says whether the last part of the key may enter the
table that holds these entries. -/
def enter? (value : Setting) : (path : List String) → (allowed : Bool) → Entries →
    Option Entries
  | [], _, _ => none
  | [key], allowed, entries =>
      if allowed && (entries.lookup key).isNone then some (entries ++ [(key, .value value)])
      else none
  | key :: path, _, entries =>
      match entries.lookup key with
      | none => do return entries ++ [(key, .table .dotted (← enter? value path true []))]
      | some (.table .header _) => none
      | some (.table origin inner) => do
          let inner ← enter? value path true inner
          return replace key (.table origin inner) entries
      | some (.tables (last :: earlier)) => do
          return replace key (.tables ((← enter? value path false last) :: earlier)) entries
      | some _ => none

mutual

/-- The value that stands under a key. -/
def Node.toSetting : Node → Setting
  | .value value => value
  | .table _ entries => .table (entriesToSettings entries)
  | .tables items => .list (itemsToSettings items [])

/-- The values of a table. -/
def entriesToSettings : List (String × Node) → List (String × Setting)
  | [] => []
  | (key, node) :: rest => (key, node.toSetting) :: entriesToSettings rest

/-- The values of a list of tables, put in front of those that come later. -/
def itemsToSettings : List (List (String × Node)) → List Setting → List Setting
  | [], later => later
  | entries :: earlier, later =>
      itemsToSettings earlier (.table (entriesToSettings entries) :: later)

end

/-! ## Values -/

mutual

/-- A value in front, with at most `room` lists and tables inside each other. -/
def value? : (fuel room : Nat) → List Char → Option (Setting × List Char)
  | fuel + 1, room + 1, '[' :: rest => do
      let (items, rest) ← items? fuel room rest
      return (.list items, rest)
  | fuel + 1, room + 1, '\x7b' :: rest => do
      let (entries, rest) ← members? fuel room [] rest
      return (.table (entriesToSettings entries), rest)
  | _, _, text => scalar? text

/-- The items of a list up to its closing bracket; a comma may follow the last. -/
def items? : (fuel room : Nat) → List Char → Option (List Setting × List Char)
  | 0, _, _ => none
  | fuel + 1, room, text => do
      match ← skipLines? text.length text with
      | ']' :: rest => return ([], rest)
      | text =>
          let (item, rest) ← value? fuel room text
          match ← skipLines? rest.length rest with
          | ',' :: rest =>
              let (items, rest) ← items? fuel room rest
              return (item :: items, rest)
          | ']' :: rest => return ([item], rest)
          | _ => none

/-- The members of a table in braces up to its closing brace; a comma may follow the last. -/
def members? : (fuel room : Nat) → Entries → List Char → Option (Entries × List Char)
  | 0, _, _, _ => none
  | fuel + 1, room, entries, text => do
      match ← skipLines? text.length text with
      | '\x7d' :: rest => return (entries, rest)
      | text =>
          let (key, rest) ← key? text
          let rest ← mark? '=' (← skipLines? rest.length rest)
          let (value, rest) ← value? fuel room (← skipLines? rest.length rest)
          let entries ← enter? value key true entries
          match ← skipLines? rest.length rest with
          | ',' :: rest => members? fuel room entries rest
          | '\x7d' :: rest => return (entries, rest)
          | _ => none

end

/-! ## Documents -/

/-- A document that has been read up to some line. -/
structure Document where
  entries : Entries
  /-- The table that keys go to. -/
  path : List String

/-- Applies a header: `change` opens the table that the last part of the key names. -/
def Document.header? (document : Document) (change : String → Entries → Option Entries)
    (key : List String) : Option Document := do
  let last ← key.getLast?
  let entries ← atHeader? (change last) key.dropLast document.entries
  return ⟨entries, key⟩

/-- Applies the line in front; it is not empty. -/
def Document.line? (document : Document) (text : List Char) : Option (Document × List Char) := do
  match text with
  | '[' :: '[' :: rest =>
      let (key, rest) ← key? rest
      let rest ← mark? ']' (← mark? ']' rest)
      return (← document.header? pushTable? key, rest)
  | '[' :: rest =>
      let (key, rest) ← key? rest
      let rest ← mark? ']' rest
      return (← document.header? openTable? key, rest)
  | _ =>
      let (key, rest) ← key? text
      let rest := skipBlanks (← mark? '=' rest)
      let (value, rest) ← value? (rest.length + 1) nestingLimit rest
      let entries ← atHeader? (enter? value key true) document.path document.entries
      return ({ document with entries }, rest)

/-- Applies all lines. -/
def Document.lines? : (fuel : Nat) → Document → List Char → Option Document
  | 0, document, _ => some document
  | fuel + 1, document, text => do
      match ← skipLines? text.length text with
      | [] => some document
      | text =>
          let (document, rest) ← document.line? text
          lines? fuel document (← nextLine? rest)

/-- Reads a document. -/
def parse? (text : String) : Option Setting := do
  let text := match text.toList with
    | '\uFEFF' :: rest => rest
    | text => text
  let document ← Document.lines? (text.length + 1) ⟨[], []⟩ text
  return .table (entriesToSettings document.entries)

end LogRelay.Toml
