import LogRelay.Settings.Value

/-!
# Where settings go

A path names a place in nested tables and lists: a name, then names after points and
places in lists in brackets.  A place counts from the end of its list if it is
negative.  What stands in the way of a path is replaced by a table or a list.  A table
that is put somewhere is merged with the table that is there, and any other value
replaces what is there.
-/

namespace LogRelay

/-- One step of a path. -/
inductive PathStep where
  /-- Into a table. -/
  | name (name : String)
  /-- Into a list. -/
  | place (index : Int)
deriving DecidableEq, Inhabited

namespace PathStep

/-- Whether the character may stand in a name. -/
def isNamePart (c : Char) : Bool := c.isAlphanum || c == '_' || c == '-'

/-- A name in front. -/
def name? (text : List Char) : Option (PathStep × List Char) :=
  let characters := text.takeWhile isNamePart
  if characters.isEmpty then none
  else some (.name (String.ofList characters), text.dropWhile isNamePart)

/-- Whether the character is a blank. -/
def isBlank (c : Char) : Bool := c == ' ' || c == '\t'

/-- A place and the bracket after it in front. -/
def place? (text : List Char) : Option (PathStep × List Char) :=
  let text := text.dropWhile isBlank
  let (sign, rest) := match text with
    | '-' :: rest => (['-'], rest)
    | rest => ([], rest)
  let (digits, rest) := Decimal.spanDigits rest
  match Decimal.int64? (sign ++ digits), rest.dropWhile isBlank with
  | some index, ']' :: rest => some (.place index, rest)
  | _, _ => none

/-- The steps after the first one. -/
def following? : (fuel : Nat) → List Char → Option (List PathStep)
  | _, [] => some []
  | 0, _ => none
  | fuel + 1, c :: rest => do
      let (step, rest) ←
        if c = '.' then name? rest else if c = '[' then place? rest else none
      return step :: (← following? fuel rest)

/-- Reads a path. -/
def parse? (text : String) : Option (List PathStep) := do
  let (step, rest) ← name? text.toList
  return step :: (← following? rest.length rest)

end PathStep

namespace Setting

/-- The entries of a table; anything else gives way to an empty table. -/
def entries : Setting → List (String × Setting)
  | table entries => entries
  | _ => []

/-- The items of a list; anything else gives way to an empty list. -/
def items : Setting → List Setting
  | list items => items
  | _ => []

/-- The entries with the value of one name changed; a missing value counts as `nil`. -/
def changeEntry (change : Setting → Setting) (name : String) :
    List (String × Setting) → List (String × Setting)
  | [] => [(name, change nil)]
  | entry :: rest =>
      if entry.1 = name then (name, change entry.2) :: rest
      else entry :: changeEntry change name rest

/-- The items with the one at a place changed, with `nil` at places that did not exist. -/
def changeItem (change : Setting → Setting) (index : Int) (items : List Setting) :
    List Setting :=
  let place := if 0 ≤ index then index else index + items.length
  if 0 ≤ place then
    let items := items ++ List.replicate (place.toNat + 1 - items.length) nil
    items.modify place.toNat change
  else (List.replicate place.natAbs nil ++ items).modify 0 change

/-- The value with the place that a path names changed. -/
def changeAt (change : Setting → Setting) : List PathStep → Setting → Setting
  | [], setting => change setting
  | .name name :: path, setting =>
      table (changeEntry (changeAt change path) name setting.entries)
  | .place index :: path, setting =>
      list (changeItem (changeAt change path) index setting.items)

mutual

/-- What becomes of `old` when `new` is put there. -/
def merge (new old : Setting) : Setting :=
  match new with
  | table entries => table (mergeEntries entries old.entries)
  | new => new

/-- The entries `old` with all entries of a table put there. -/
def mergeEntries (new old : List (String × Setting)) : List (String × Setting) :=
  match new with
  | [] => old
  | (name, value) :: rest => mergeEntries rest (changeEntry (merge value) name old)

end

/-- Puts a value at the place that a text names.  A text that is no path is a name. -/
def put (path : String) (value root : Setting) : Setting :=
  changeAt (merge value) ((PathStep.parse? path).getD [.name path]) root

/-- Puts all entries of a source at the places that their names name. -/
def overlay (root source : Setting) : Setting :=
  source.entries.foldl (fun root entry => put entry.1 entry.2 root) root

end Setting

end LogRelay
