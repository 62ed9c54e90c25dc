/-!
# Patterns

A pattern describes texts by signs, classes of characters, repetitions, groups,
alternatives and sequences.  Flags change how the rest of a group is understood.

Patterns are matched without knowledge of scripts: outside ASCII no character is known to be
a digit, a blank, a letter or the other case of a letter.  So most of what depends on the kind of
a character can only be used where the pattern leaves the scripts aside, and there nothing
may match a single byte of a character (`Pattern.isUsable`).
-/

namespace LogRelay

/-! ## Classes of characters -/

/-- A class of characters, or a part of one. -/
inductive CharacterClass where
  /-- No character. -/
  | none
  | character (c : Char)
  | range (first last : Char)
  /-- The digits, blanks or letters of all scripts, or all other characters. -/
  | kind (negated : Bool)
  /-- A class of ASCII characters with a name, or all other characters. -/
  | named (negated : Bool)
  /-- A class in brackets, or all other characters. -/
  | bracketed (negated : Bool) (inner : CharacterClass)
  /-- What is in one of the classes. -/
  | union (parts : List CharacterClass)
  /-- The common characters of two classes, or what is in the first and not in the second, or
  what is in one of them only. -/
  | combined (left right : CharacterClass)
deriving Inhabited

/-! ## Flags -/

/-- What flags set on or off. -/
structure PatternFlags where
  /-- Upper and lower case are the same. -/
  foldsCase : Option Bool := none
  /-- Characters of all scripts are known. -/
  knowsScripts : Option Bool := none
  /-- Blanks and comments may stand between the signs. -/
  isSpaced : Option Bool := none
deriving DecidableEq, Inhabited

/-- How the signs of a pattern are understood. -/
structure PatternMode where
  foldsCase : Bool := false
  knowsScripts : Bool := true
deriving DecidableEq, Inhabited

/-- The mode after flags. -/
def PatternMode.after (mode : PatternMode) (flags : PatternFlags) : PatternMode :=
  { foldsCase := flags.foldsCase.getD mode.foldsCase
    knowsScripts := flags.knowsScripts.getD mode.knowsScripts }

/-! ## Patterns -/

/-- A pattern. -/
inductive Pattern where
  | empty
  | character (c : Char) (isByte : Bool)
  | any
  /-- A digit, blank or letter of any script, or any other character. -/
  | kind (negated : Bool)
  /-- A character of a class in brackets. -/
  | oneOf (inner : CharacterClass)
  /-- An end of the text or of a line. -/
  | edge
  /-- An end of a word, or a place that is none. -/
  | wordEdge
  /-- Flags for what follows. -/
  | change (flags : PatternFlags)
  /-- A number of repetitions. -/
  | repeated (inner : Pattern)
  /-- A group, which may have a name and flags of its own. -/
  | group (name : Option String) (flags : PatternFlags) (inner : Pattern)
  | alternatives (branches : List Pattern)
  | sequence (parts : List Pattern)
deriving Inhabited

/-! ## Use -/

namespace CharacterClass

/-- How many classes stand inside each other, not counting the simple ones. -/
def height : CharacterClass → Nat
  | none | character _ | range _ _ | kind _ | named _ => 0
  | bracketed _ inner => inner.height + 1
  | union parts => greatestHeight parts + 1
  | combined left right => max left.height right.height + 1
where
  greatestHeight : List CharacterClass → Nat
    | [] => 0
    | part :: parts => max part.height (greatestHeight parts)

/-- Whether a class can be used in a mode. -/
def isUsable (mode : PatternMode) : CharacterClass → Bool
  | none => true
  | character c => if mode.knowsScripts then !mode.foldsCase else isAscii c
  | range _ last => if mode.knowsScripts then !mode.foldsCase else isAscii last
  | kind negated => !mode.knowsScripts && !negated
  | named negated => if mode.knowsScripts then !mode.foldsCase else !negated
  | bracketed negated inner => (mode.knowsScripts || !negated) && inner.isUsable mode
  | union parts => areUsable parts
  | combined left right => left.isUsable mode && right.isUsable mode
where
  isAscii (c : Char) : Bool := decide (c.toNat < 0x80)
  areUsable : List CharacterClass → Bool
    | [] => true
    | part :: parts => part.isUsable mode && areUsable parts

end CharacterClass

namespace Pattern

/-- How many patterns stand inside each other, not counting the simple ones. -/
def height : Pattern → Nat
  | empty | character _ _ | any | kind _ | edge | wordEdge | change _ => 0
  | oneOf inner => inner.height
  | repeated inner => inner.height + 1
  | group _ _ inner => inner.height + 1
  | alternatives branches => greatestHeight branches + 1
  | sequence parts => greatestHeight parts + 1
where
  greatestHeight : List Pattern → Nat
    | [] => 0
    | part :: parts => max part.height (greatestHeight parts)

/-- The greatest height of a pattern that can be used. -/
def heightLimit : Nat := 250

/-- The names of the groups. -/
def names : Pattern → List String
  | repeated inner => inner.names
  | group name _ inner => name.toList ++ inner.names
  | alternatives branches => allNames branches
  | sequence parts => allNames parts
  | _ => []
where
  allNames : List Pattern → List String
    | [] => []
    | part :: parts => part.names ++ allNames parts

/-- The mode after a pattern that can be used in a mode. -/
def modeAfter? (mode : PatternMode) : Pattern → Option PatternMode
  | empty | edge => some mode
  | character c isByte =>
      if mode.knowsScripts then if mode.foldsCase then none else some mode
      else if isByte ∧ 0x80 ≤ c.toNat then none
      else some mode
  | any => if mode.knowsScripts then some mode else none
  | kind negated => if mode.knowsScripts || negated then none else some mode
  | oneOf inner => if inner.isUsable mode then some mode else none
  | wordEdge => if mode.knowsScripts then none else some mode
  | change flags => some (mode.after flags)
  | repeated inner => inner.modeAfter? mode
  | group _ flags inner => (inner.modeAfter? (mode.after flags)).map fun _ => mode
  | alternatives branches => modeAfterAll? mode branches
  | sequence parts => modeAfterAll? mode parts
where
  modeAfterAll? (mode : PatternMode) : List Pattern → Option PatternMode
    | [] => some mode
    | part :: parts => (part.modeAfter? mode).bind fun mode => modeAfterAll? mode parts

/-- Whether texts can be matched with a pattern. -/
def isUsable (pattern : Pattern) : Bool :=
  decide (pattern.height ≤ heightLimit) && decide pattern.names.Nodup &&
    (pattern.modeAfter? {}).isSome

end Pattern

end LogRelay
