import LogRelay.Varint

/-!
# Numbers in bytes

What is written in `width` bytes reads back modulo `256 ^ width`, so that numbers below
that bound are told apart by their bytes, and their bytes are in the order of the numbers.
A number of variable length is read back with exactly the bytes that follow it.
-/

namespace LogRelay

namespace Bytes

@[simp] theorem toNat_nil : toNat [] = 0 := rfl

theorem toNat_append_singleton (bytes : Bytes) (last : UInt8) :
    toNat (bytes ++ [last]) = toNat bytes * 256 + last.toNat := by
  simp [toNat, List.foldl_append]

/-- What is written in `width` bytes reads back modulo `256 ^ width`. -/
theorem toNat_ofNat (width value : Nat) :
    toNat (ofNat width value) = value % Nat.pow 256 width := by
  induction width generalizing value with
  | zero => simp [ofNat, Nat.mod_one]
  | succ width ih =>
      have hlast : (UInt8.ofNat value).toNat = value % 256 := UInt8.toNat_ofNat'
      have hsplit : value % (256 * Nat.pow 256 width) =
          value % 256 + 256 * (value / 256 % Nat.pow 256 width) := Nat.mod_mul
      have hpow : Nat.pow 256 (width + 1) = 256 * Nat.pow 256 width := Nat.mul_comm _ _
      rw [ofNat, toNat_append_singleton, ih, hlast, hpow]
      omega

theorem toNat_ofNat_of_lt {width value : Nat} (h : value < Nat.pow 256 width) :
    toNat (ofNat width value) = value := by
  rw [toNat_ofNat, Nat.mod_eq_of_lt h]

theorem ofNat_inj {width first second : Nat} (h : ofNat width first = ofNat width second)
    (hfirst : first < Nat.pow 256 width) (hsecond : second < Nat.pow 256 width) :
    first = second := by
  calc first = toNat (ofNat width first) := (toNat_ofNat_of_lt hfirst).symm
    _ = toNat (ofNat width second) := by rw [h]
    _ = second := toNat_ofNat_of_lt hsecond

/-! ### The order -/

/-- Byte strings in front of others decide the order, if they are equally long and differ. -/
theorem append_lt_append_iff {first second : Bytes} (h : first.length = second.length)
    (rest other : Bytes) :
    first ++ rest < second ++ other ↔ first < second ∨ first = second ∧ rest < other := by
  induction first generalizing second with
  | nil =>
      obtain rfl : second = [] := List.length_eq_zero_iff.mp h.symm
      simp
  | cons byte first ih =>
      cases second with
      | nil => cases h
      | cons other second =>
          have hlength : first.length = second.length := Nat.succ.inj h
          simp only [List.cons_append, List.cons_lt_cons_iff, ih hlength, List.cons.injEq,
            and_or_left, or_assoc, and_assoc]

theorem ofNat_lt_ofNat_iff {width first second : Nat} (hfirst : first < Nat.pow 256 width)
    (hsecond : second < Nat.pow 256 width) :
    ofNat width first < ofNat width second ↔ first < second := by
  induction width generalizing first second with
  | zero =>
      have hone : Nat.pow 256 0 = 1 := rfl
      simp only [ofNat, List.lt_irrefl, false_iff]
      omega
  | succ width ih =>
      have hpow : Nat.pow 256 (width + 1) = Nat.pow 256 width * 256 := rfl
      have hfront : first / 256 < Nat.pow 256 width := by omega
      have hfront' : second / 256 < Nat.pow 256 width := by omega
      have hlast : (UInt8.ofNat first).toNat = first % 256 := UInt8.toNat_ofNat'
      have hlast' : (UInt8.ofNat second).toNat = second % 256 := UInt8.toNat_ofNat'
      have hsame : ofNat width (first / 256) = ofNat width (second / 256) ↔
          first / 256 = second / 256 :=
        ⟨fun h => ofNat_inj h hfront hfront', fun h => by rw [h]⟩
      rw [ofNat, ofNat, append_lt_append_iff (by simp), ih hfront hfront', hsame,
        List.cons_lt_cons_iff, UInt8.lt_iff_toNat_lt, hlast, hlast']
      simp only [List.lt_irrefl, and_false, or_false]
      omega

end Bytes

namespace Varint

@[simp] theorem length_littleEndian (width value : Nat) :
    (littleEndian width value).length = width := by
  simp [littleEndian]

theorem ofLittleEndian_littleEndian {width value : Nat} (h : value < Nat.pow 256 width) :
    ofLittleEndian (littleEndian width value) = value := by
  rw [ofLittleEndian, littleEndian, List.reverse_reverse, Bytes.toNat_ofNat_of_lt h]

/-- An announced number is read back from its announcement and its bytes. -/
theorem decode?_announced {byte : UInt8} {width value : Nat} (rest : Bytes)
    (hlarge : ¬ byte ≤ 250) (hwidth : width? byte = some width) (h : value < Nat.pow 256 width) :
    decode? (byte :: (littleEndian width value ++ rest)) = some (value, rest) := by
  have hlength : ¬ (littleEndian width value ++ rest).length < width := by simp
  simp only [decode?, hlarge, if_false, hwidth, Option.bind_eq_bind, Option.bind_some, hlength]
  rw [List.take_left' (length_littleEndian width value),
    List.drop_left' (length_littleEndian width value), ofLittleEndian_littleEndian h]

/-- Reading undoes writing for numbers of 64 bits, whatever follows. -/
theorem decode?_encode_append {value : Nat} (h : value < Nat.pow 2 64) (rest : Bytes) :
    decode? (encode value ++ rest) = some (value, rest) := by
  unfold encode
  split
  · rename_i hsmall
    have hbyte : (UInt8.ofNat value).toNat = value := by
      rw [UInt8.toNat_ofNat']
      omega
    have hle : UInt8.ofNat value ≤ 250 := by
      rw [UInt8.le_iff_toNat_le, hbyte]
      exact hsmall
    simp [decode?, hle, hbyte]
  split
  · exact decode?_announced rest (by decide) rfl (by omega)
  split
  · exact decode?_announced rest (by decide) rfl (by omega)
  · exact decode?_announced rest (by decide) rfl (by omega)

end Varint

end LogRelay
