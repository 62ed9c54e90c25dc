/-!
# Bytes

Byte strings are lists of bytes, and words of a known size carry their length.
Numbers are read from and written to byte strings with the most significant byte
first.  The order on byte strings is the lexicographic one that `List` brings.
-/

namespace LogRelay

/-- A byte string. -/
abbrev Bytes := List UInt8

namespace Bytes

/-- The number whose digits in base 256, most significant first, are the bytes. -/
def toNat (bytes : Bytes) : Nat :=
  bytes.foldl (fun value byte => value * 256 + byte.toNat) 0

/-- The last `width` digits of `value` in base 256, most significant first. -/
def ofNat : (width value : Nat) → Bytes
  | 0, _ => []
  | width + 1, value => ofNat width (value / 256) ++ [UInt8.ofNat value]

@[simp] theorem length_ofNat (width value : Nat) : (ofNat width value).length = width := by
  induction width generalizing value with
  | zero => rfl
  | succ width ih => simp [ofNat, ih]

/-- The last `width` bytes, with zero bytes in front where there are fewer. -/
def padLeft (width : Nat) (bytes : Bytes) : Bytes :=
  List.replicate (width - bytes.length) 0 ++ bytes.drop (bytes.length - width)

@[simp] theorem length_padLeft (width : Nat) (bytes : Bytes) :
    (padLeft width bytes).length = width := by
  simp only [padLeft, List.length_append, List.length_replicate, List.length_drop]
  omega

end Bytes

/-- A byte string of exactly `size` bytes. -/
structure Word (size : Nat) where
  bytes : Bytes
  length_bytes : bytes.length = size
deriving DecidableEq

namespace Word

variable {size : Nat}

/-- The word of zero bytes. -/
def zero (size : Nat) : Word size := ⟨List.replicate size 0, List.length_replicate ..⟩

instance : Inhabited (Word size) := ⟨zero size⟩

/-- The byte string as a word, if it has the right length. -/
def ofBytes? (size : Nat) (bytes : Bytes) : Option (Word size) :=
  if h : bytes.length = size then some ⟨bytes, h⟩ else none

/-- The last `size` bytes, with zero bytes in front where there are fewer. -/
def padLeft (size : Nat) (bytes : Bytes) : Word size :=
  ⟨Bytes.padLeft size bytes, Bytes.length_padLeft size bytes⟩

/-- The number that the word writes down, most significant byte first. -/
def toNat (word : Word size) : Nat := Bytes.toNat word.bytes

/-- The word that writes `value` down, modulo `256 ^ size`. -/
def ofNat (size value : Nat) : Word size :=
  ⟨Bytes.ofNat size value, Bytes.length_ofNat size value⟩

@[ext] theorem ext {first second : Word size} (h : first.bytes = second.bytes) :
    first = second := by
  cases first; cases second; cases h; rfl

/-- Words are compared byte by byte, the first difference decides. -/
instance : LT (Word size) := ⟨fun first second => first.bytes < second.bytes⟩

instance (first second : Word size) : Decidable (first < second) :=
  inferInstanceAs (Decidable (first.bytes < second.bytes))

theorem lt_def {first second : Word size} : first < second ↔ first.bytes < second.bytes := Iff.rfl

end Word

end LogRelay
