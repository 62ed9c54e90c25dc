/-!
# Where files can be created

A process writes to files under their paths.  Whether there can be a file under a path, and which
one it is, is a matter of the directories that there are (`Directory`).
-/

namespace LogRelay

/-- The directories as a process sees them. -/
structure Directory where
  /-- The file that a path leads to, if one can be created there.  Paths to the same file lead to
  the same name. -/
  locate? : String → Option String
deriving Inhabited

namespace Directory

/-- Whether a text is the name of a file: it is not empty, does not stand for a directory, and has
no slash and no null character. -/
def isFileName (name : List Char) : Bool :=
  !name.isEmpty && name ≠ ['.'] && name ≠ ['.', '.'] && !name.contains '/' &&
    !name.contains '\x00' && decide ((String.ofList name).utf8ByteSize ≤ 255)

/-- The greatest number of bytes of a path. -/
def pathLimit : Nat := 4095

/-- The texts between the slashes of a path. -/
def segments (path : String) : List (List Char) := path.toList.splitOn '/'

/-- One step on a path that is now in the directory `here`.  There are no directories but `home`
and those in which it is, and the way from the root leads over the names in the list. -/
def step? (home here : List (List Char)) (segment : List Char) : Option (List (List Char)) :=
  let below := here ++ [segment]
  if segment.isEmpty || segment = ['.'] then some here
  else if segment = ['.', '.'] then some here.dropLast
  else if below.isPrefixOf home then some below
  else none

/-- A directory with no directories in it.  Files can be created in it and in those above, and all
paths start at the root. -/
def named (name : String) : Directory where
  locate? path := do
    let home := (segments name).filter (!·.isEmpty)
    let here ← (segments path).dropLast.foldlM (step? home) []
    let file := (segments path).getLastD []
    let place := here ++ [file]
    if isFileName file && !place.isPrefixOf home && decide (path.utf8ByteSize ≤ pathLimit) then
      some (String.ofList (['/'].intercalate ([] :: place)))
    else none

instance : Coe String Directory := ⟨named⟩

/-- Three spellings of one path. -/
example :
    (["/var/log/../x.log", "/var//./x.log", "/../var/log/../../var/x.log"].map
      (named "/var/log").locate?) = List.replicate 3 (some "/var/x.log") := by
  decide +kernel

end Directory

end LogRelay
