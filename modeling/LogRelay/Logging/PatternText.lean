import LogRelay.Hex
import LogRelay.Logging.Pattern
import LogRelay.Text.Alphanumeric
import LogRelay.Text.Blank

/-!
# Patterns in writing

Reading a pattern from the front of a text, for which the flags that allow blanks and
comments between the signs matter already.  A text that breaks off is no pattern.
-/

namespace LogRelay

/-- Reading a part of a pattern from the front of a text: what was read and the rest. -/
abbrev PatternReading (α : Type) := List Char → Option (α × List Char)

namespace PatternText

/-! ## Blanks and comments -/

/-- The text from its first character on that belongs neither to a blank nor to a comment, which
goes from a number sign to the end of the line. -/
def skipSpace : (isInComment : Bool) → List Char → List Char
  | _, [] => []
  | true, c :: rest => skipSpace (c ≠ '\n') rest
  | false, c :: rest =>
      if Text.isBlank c then skipSpace false rest
      else if c = '#' then skipSpace true rest
      else c :: rest

/-- The text without blanks and comments in front, if these are allowed. -/
def skip (isSpaced : Bool) (text : List Char) : List Char :=
  if isSpaced then skipSpace false text else text

/-- The character that tells whether a hyphen before it stands for a range.  Of a comment
only the number sign is passed over. -/
def afterHyphen? (isSpaced : Bool) (text : List Char) : Option Char :=
  if !isSpaced then text.head?
  else
    let visible := match Text.dropBlanks text with
      | '#' :: comment => Text.dropBlanks comment
      | text => text
    visible.head?.or text.head?

/-! ## Escapes -/

/-- Reads hexadecimal digits. -/
def hexDigits (isSpaced : Bool) : (count : Nat) → (value : Nat) → PatternReading Nat
  | 0, value, text => some (value, text)
  | count + 1, value, text =>
      match skip isSpaced text with
      | [] => none
      | digit :: rest => do
          hexDigits isSpaced count (value * 16 + (← Hex.digitValue? digit)) rest

/-- Reads a character that is written as its number. -/
def numbered (isSpaced : Bool) (count : Nat) : PatternReading Pattern := fun text => do
  let (value, rest) ← hexDigits isSpaced count 0 text
  if h : value.isValidChar then
    some (.character (Char.ofNatAux value h) (count == 2), rest)
  else none

/-- Reads what follows a backslash.  Besides the characters with a meaning of their own, all of
ASCII but letters, digits and the two angle brackets stand for themselves. -/
def escape (isSpaced : Bool) : PatternReading Pattern
  | [] => none
  | c :: rest =>
      match c with
      | 'x' => numbered isSpaced 2 rest
      | 'u' => numbered isSpaced 4 rest
      | 'U' => numbered isSpaced 8 rest
      | 'd' | 's' | 'w' => some (.kind false, rest)
      | 'D' | 'S' | 'W' => some (.kind true, rest)
      | 'a' => some (.character '\x07' false, rest)
      | 'f' => some (.character '\x0c' false, rest)
      | 't' => some (.character '\t' false, rest)
      | 'n' => some (.character '\n' false, rest)
      | 'r' => some (.character '\r' false, rest)
      | 'v' => some (.character '\x0b' false, rest)
      | 'A' | 'z' => some (.edge, rest)
      | 'b' | 'B' | '<' | '>' => some (.wordEdge, rest)
      | _ =>
          if c.toNat < 0x80 && !c.isAlphanum then some (.character c false, rest) else none

/-! ## Classes -/

/-- The names of classes of ASCII characters. -/
def classNames : List String :=
  ["alnum", "alpha", "ascii", "blank", "cntrl", "digit", "graph", "lower", "print", "punct",
    "space", "upper", "word", "xdigit"]

/-- Reads the name of a class after an opening bracket. -/
def namedClass : PatternReading CharacterClass
  | ':' :: text =>
      let (negated, text) := match text with
        | '\x5e' :: text => (true, text)
        | text => (false, text)
      match text.span (· ≠ ':') with
      | (name, ':' :: ']' :: rest) =>
          if classNames.contains (String.ofList name) then some (.named negated, rest) else none
      | _ => none
  | _ => none

/-- Reads a character in a class, or a kind of characters. -/
def classItem (isSpaced : Bool) : PatternReading CharacterClass
  | [] => none
  | '\\' :: rest =>
      match escape isSpaced rest with
      | some (.character c _, rest) => some (.character c, rest)
      | some (.kind negated, rest) => some (.kind negated, rest)
      | _ => none
  | c :: rest => some (.character c, rest)

/-- Reads a range in a class, or only one character or a kind of characters. -/
def classRange (isSpaced : Bool) : PatternReading CharacterClass := fun text => do
  let (first, rest) ← classItem isSpaced text
  match skip isSpaced rest with
  | '-' :: following =>
      if [some ']', some '-'].contains (afterHyphen? isSpaced following) then
        return (first, '-' :: following)
      else
        let (last, rest) ← classItem isSpaced (skip isSpaced following)
        match first, last with
        | .character first, .character last =>
            if first ≤ last then return (.range first last, rest) else none
        | _, _ => none
  | rest => return (first, rest)

/-- Reads the characters at the beginning of a class that have no special meaning there: hyphens,
or else a closing bracket. -/
def classStart (isSpaced : Bool) (text : List Char) : List CharacterClass × List Char :=
  match text with
  | ']' :: rest => ([.character ']'], rest)
  | _ => hyphens text.length text
where
  hyphens : (fuel : Nat) → List Char → List CharacterClass × List Char
    | fuel + 1, '-' :: rest =>
        let (following, rest) := hyphens fuel (skip isSpaced rest)
        (.character '-' :: following, rest)
    | _, text => ([], text)

/-- The union of the parts of a class, of which the last one comes first. -/
def unionOf : List CharacterClass → CharacterClass
  | [] => .none
  | [part] => part
  | parts => .union parts.reverse

/-- A class, combined with what is on its left. -/
def combine (left : Option CharacterClass) (right : CharacterClass) : CharacterClass :=
  match left with
  | none => right
  | some left => .combined left right

mutual

/-- Reads a class after its opening bracket. -/
def bracketed (isSpaced : Bool) : (fuel : Nat) → PatternReading CharacterClass
  | 0, _ => none
  | fuel + 1, text => do
      let (negated, text) := match skip isSpaced text with
        | '\x5e' :: text => (true, skip isSpaced text)
        | text => (false, text)
      let (parts, text) := classStart isSpaced text
      let (inner, rest) ← classRest isSpaced fuel none parts.reverse text
      return (.bracketed negated inner, rest)

/-- Reads the rest of a class, after what is on the left of an operator and some parts, of which
the last one comes first. -/
def classRest (isSpaced : Bool) :
    (fuel : Nat) → Option CharacterClass → List CharacterClass → PatternReading CharacterClass
  | 0, _, _, _ => none
  | fuel + 1, left, parts, text =>
      match skip isSpaced text with
      | '[' :: rest => do
          let (part, rest) ← (namedClass rest).or (bracketed isSpaced fuel rest)
          classRest isSpaced fuel left (part :: parts) rest
      | ']' :: rest => some (combine left (unionOf parts), rest)
      | '&' :: '&' :: rest | '-' :: '-' :: rest | '~' :: '~' :: rest =>
          classRest isSpaced fuel (some (combine left (unionOf parts))) [] rest
      | text => do
          let (part, rest) ← classRange isSpaced text
          classRest isSpaced fuel left (part :: parts) rest

end

/-! ## Groups -/

/-- What stands after an opening parenthesis. -/
inductive Opening where
  /-- Flags for the rest of the group that is open already. -/
  | change (flags : PatternFlags)
  /-- The beginning of a new group. -/
  | group (name : Option String) (flags : PatternFlags)

/-- Whether a character can stand in the name of a group. -/
def mayName (isFirst : Bool) (c : Char) : Bool :=
  if isFirst then c == '_' || Text.isLetter c
  else ['_', '.', '[', ']'].contains c || Text.isAlphanumeric c

/-- Reads the name of a group up to its closing bracket. -/
def groupName : PatternReading String := fun text =>
  match text.span (· ≠ '>') with
  | (first :: others, _ :: rest) =>
      if mayName true first && others.all (mayName false) then
        some (String.ofList (first :: others), rest)
      else none
  | _ => none

/-- The flags, of which each stands at most once before or after a minus sign. -/
def flagSigns : List Char := ['i', 'm', 's', 'U', 'u', 'R', 'x']

/-- Reads flags up to a mark that is no flag.  A minus sign is one of the `seen` signs if
the flags are to be set off. -/
def flags (seen : List Char) (read : PatternFlags) : PatternReading PatternFlags
  | [] => none
  | c :: rest =>
      let isSet := !seen.contains '-'
      if c = ':' ∨ c = ')' then
        if seen.head? = some '-' then none else some (read, c :: rest)
      else if seen.contains c then none
      else if c = '-' then flags (c :: seen) read rest
      else if !flagSigns.contains c then none
      else
        flags (c :: seen)
          (match c with
            | 'i' => { read with foldsCase := some isSet }
            | 'u' => { read with knowsScripts := some isSet }
            | 'x' => { read with isSpaced := some isSet }
            | _ => read)
          rest

/-- Reads what stands after an opening parenthesis. -/
def opening : PatternReading Opening
  | '?' :: 'P' :: '<' :: rest | '?' :: '<' :: rest => do
      let (name, rest) ← groupName rest
      return (.group (some name) {}, rest)
  | '?' :: rest => do
      match ← flags [] {} rest with
      | (flags, ':' :: rest) => return (.group none flags, rest)
      | (flags, _ :: after) => if rest.head? = some ')' then none else return (.change flags, after)
      | _ => none
  | rest => some (.group none {}, rest)

/-! ## Patterns -/

/-- The sequence of patterns, of which the last one comes first. -/
def sequenceOf : List Pattern → Pattern
  | [] => .empty
  | [part] => part
  | parts => .sequence parts.reverse

/-- One of several patterns, of which the last one comes first. -/
def alternativesOf : List Pattern → Pattern
  | [branch] => branch
  | branches => .alternatives branches.reverse

/-- Repeats the last part of a sequence.  There has to be one, and flags cannot be repeated. -/
def repeatLast? : List Pattern → Option (List Pattern)
  | [] | .change _ :: _ => none
  | part :: parts => some (.repeated part :: parts)

/-- Reads alternatives up to a closing parenthesis or the end of the text, after some `branches`
and some `parts` of another one; in both the last one comes first. -/
def alternatives :
    (fuel : Nat) → (isSpaced : Bool) → (branches parts : List Pattern) → PatternReading Pattern
  | 0, _, _, _, _ => none
  | fuel + 1, isSpaced, branches, parts, text =>
      match skip isSpaced text with
      | [] => some (alternativesOf (sequenceOf parts :: branches), [])
      | c :: rest =>
          match c with
          | ')' => some (alternativesOf (sequenceOf parts :: branches), c :: rest)
          | '|' => alternatives fuel isSpaced (sequenceOf parts :: branches) [] rest
          | '(' => do
              match ← opening (skip isSpaced rest) with
              | (.change flags, rest) =>
                  alternatives fuel (flags.isSpaced.getD isSpaced) branches
                    (.change flags :: parts) rest
              | (.group name flags, rest) =>
                  match ← alternatives fuel (flags.isSpaced.getD isSpaced) [] [] rest with
                  | (inner, ')' :: rest) =>
                      alternatives fuel isSpaced branches
                        (.group name flags inner :: parts) rest
                  | _ => none
          | '[' => do
              let (inner, rest) ← bracketed isSpaced fuel rest
              alternatives fuel isSpaced branches (.oneOf inner :: parts) rest
          | '?' | '*' | '+' => do
              let parts ← repeatLast? parts
              let rest := match rest with
                | '?' :: rest => rest
                | rest => rest
              alternatives fuel isSpaced branches parts rest
          | '\x7b' => none
          | '\\' => do
              let (part, rest) ← escape isSpaced rest
              alternatives fuel isSpaced branches (part :: parts) rest
          | '.' => alternatives fuel isSpaced branches (.any :: parts) rest
          | '\x5e' | '$' => alternatives fuel isSpaced branches (.edge :: parts) rest
          | c => alternatives fuel isSpaced branches (.character c false :: parts) rest

end PatternText

/-- Reads a whole text as a pattern, without counted repetitions. -/
def Pattern.parse? (text : List Char) : Option Pattern :=
  match PatternText.alternatives (2 * text.length + 1) false [] [] text with
  | some (pattern, []) => some pattern
  | _ => none

end LogRelay
