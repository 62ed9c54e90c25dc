import LogRelay.Abi.TypeText
import LogRelay.Proofs.BigEndian
import LogRelay.Proofs.WellTyped

/-!
# One word and back

The value of a word type is read back from its word (`AbiType.ofWord?_word?`), provided that
the width of the type exists (`AbiType.hasWidth`): a number of more than 256 bits would lose its
first digits.

Distances and lengths are written as whole words, of which only the last eight bytes are read;
up to 64 bits that is the number itself (`Word.toNat_drop_ofNat`).
-/

namespace LogRelay

namespace Bytes

theorem drop_ofNat (skipped width value : Nat) :
    (ofNat (skipped + width) value).drop skipped = ofNat width value := by
  induction width generalizing value with
  | zero => exact List.drop_eq_nil_of_le (by simp)
  | succ width ih =>
      rw [← Nat.add_assoc, ofNat, ofNat, List.drop_append_of_le_length (by simp), ih]

theorem padLeft_of_length {width : Nat} {bytes : Bytes} (h : bytes.length = width) :
    padLeft width bytes = bytes := by
  simp [padLeft, h]

/-- Zero bytes put in front are dropped again. -/
theorem padLeft_padLeft {inner outer : Nat} {bytes : Bytes} (h : bytes.length = inner)
    (hle : inner ≤ outer) : padLeft inner (padLeft outer bytes) = bytes := by
  have houter : padLeft outer bytes = List.replicate (outer - inner) 0 ++ bytes := by
    rw [padLeft, h, Nat.sub_eq_zero_of_le hle, List.drop_zero]
  rw [padLeft, length_padLeft, Nat.sub_eq_zero_of_le hle, houter]
  simp

end Bytes

namespace Word

theorem toNat_ofNat_of_lt {size value : Nat} (h : value < Nat.pow 256 size) :
    (ofNat size value).toNat = value :=
  Bytes.toNat_ofNat_of_lt h

/-- A size of 64 bits stands in the last eight bytes of its word. -/
theorem toNat_drop_ofNat {value : Nat} (h : value < sizeCount) :
    Bytes.toNat ((ofNat 32 value).bytes.drop 24) = value := by
  have hlast : (ofNat 32 value).bytes.drop 24 = Bytes.ofNat 8 value := Bytes.drop_ofNat 24 8 value
  rw [hlast]
  exact Bytes.toNat_ofNat_of_lt h

end Word

/-- A number with its sign is read back from its word. -/
theorem intOfWord_wordOfInt {value : Int} (hlow : -(Nat.pow 2 255 : Int) ≤ value)
    (hhigh : value < Nat.pow 2 255) : intOfWord (AbiValue.wordOfInt value) = value := by
  have hhalf : Nat.pow 2 255 = 2 ^ 255 := rfl
  have hmodulus : ((Nat.pow 2 256 : Nat) : Int) = 2 ^ 256 := rfl
  have hlt : (value % (Nat.pow 2 256 : Nat)).toNat < Nat.pow 256 32 := by
    have hbound : Nat.pow 256 32 = 2 ^ 256 := rfl
    rw [hmodulus, hbound]
    omega
  rw [intOfWord, AbiValue.wordOfInt, Word.toNat_ofNat_of_lt hlt, hmodulus]
  rw [hhalf] at hlow hhigh ⊢
  by_cases hsign : 0 ≤ value
  · rw [Int.emod_eq_of_lt hsign (by omega), if_pos (by omega)]
    exact Int.toNat_of_nonneg hsign
  · have hmod : value % 2 ^ 256 = value + 2 ^ 256 := by omega
    rw [hmod, if_neg (by omega)]
    omega

namespace AbiType

/-- Whether there are types of this width or length. -/
def hasWidth : AbiType → Bool
  | uint bits | int bits => TypeText.isWidth bits
  | fixedBytes size => TypeText.isLength size
  | _ => true

/-- The widths and lengths in the type exist. -/
def isProper (type : AbiType) : Bool := type.throughout hasWidth

theorem le_of_isWidth {bits : Nat} (h : TypeText.isWidth bits = true) : bits ≤ 256 := by
  simp only [TypeText.isWidth, Bool.and_eq_true, decide_eq_true_eq] at h
  exact h.1.2

/-- The value of a word type is read back from its word. -/
theorem ofWord?_word? {type : AbiType} {value : AbiValue} {word : Word 32}
    (hproper : type.isProper = true) (h : type.Admits value) (hword : value.word? = some word) :
    ofWord? word type = some value := by
  have hwidth := check_of_throughout hproper
  cases type
  case bool =>
    obtain ⟨flag, rfl⟩ := h
    obtain rfl := Option.some.inj hword
    cases flag <;> rfl
  case address =>
    obtain ⟨address, rfl⟩ := h
    obtain rfl := Option.some.inj hword
    rw [ofWord?]
    have hbytes : Word.padLeft 20 (Word.padLeft 32 address.bytes).bytes = address :=
      Word.ext (Bytes.padLeft_padLeft address.length_bytes (by decide))
    rw [hbytes]
  case function =>
    obtain ⟨function, rfl⟩ := h
    obtain rfl := Option.some.inj hword
    rw [ofWord?, List.take_left' function.length_bytes]
    have hbytes : Word.padLeft 24 function.bytes = function :=
      Word.ext (Bytes.padLeft_of_length function.length_bytes)
    rw [hbytes]
  case uint bits =>
    rw [Admits] at h
    obtain ⟨number, rfl, hnumber⟩ := h
    obtain rfl := Option.some.inj hword
    have hlt : number < Nat.pow 256 32 :=
      Nat.lt_of_lt_of_le hnumber (Nat.pow_le_pow_right (by decide) (le_of_isWidth hwidth))
    rw [ofWord?, Word.toNat_ofNat_of_lt hlt]
  case int bits =>
    rw [Admits] at h
    obtain ⟨number, rfl, hlow, hhigh⟩ := h
    obtain rfl := Option.some.inj hword
    have hle : Nat.pow 2 (bits - 1) ≤ Nat.pow 2 255 := by
      have hbits := le_of_isWidth hwidth
      exact Nat.pow_le_pow_right (by decide) (by omega)
    rw [ofWord?, intOfWord_wordOfInt (by omega) (by omega)]
  case fixedBytes size =>
    rw [Admits] at h
    obtain ⟨content, rfl, -⟩ := h
    obtain rfl := Option.some.inj hword
    rfl
  case bytes | string | array | fixedArray | tuple =>
    rw [Admits] at h
    obtain ⟨content, rfl, -⟩ := h
    cases hword

theorem ofTopic_word? {type : AbiType} {value : AbiValue} {word : Word 32}
    (hproper : type.isProper = true) (h : type.Admits value) (hword : value.word? = some word) :
    type.ofTopic word = value := by
  rw [ofTopic, ofWord?_word? hproper h hword]
  rfl

/-- A topic says nothing about a value that does not fit in a word. -/
theorem ofTopic_of_isWord {type : AbiType} (h : type.isWord = false) (topic : Word 32) :
    type.ofTopic topic = .fixedBytes topic 32 := by
  cases type
  case bytes | string | array | fixedArray | tuple => rfl
  all_goals cases h

end AbiType

end LogRelay
