import LogRelay.Text.Utf8

/-!
# Reading text that was written

The bytes of a text are those of its characters one after the other, and every character
is read back from its bytes with exactly as many of them, whatever follows.  So the bytes
of a text read back as the text (`decode?_encode`).

The lead byte of a character carries its highest bits.  Where these are least or greatest
(`leadByte?_three`, `leadByte?_four`) the byte after it has a narrower range, which is the
one that the characters of this length leave.
-/

namespace LogRelay.Text

theorem byteArray_toList_loop (bytes : ByteArray) (position : Nat) (read : Bytes) :
    ByteArray.toList.loop bytes position read =
      read.reverse ++ bytes.data.toList.drop position := by
  fun_induction ByteArray.toList.loop bytes position read with
  | case1 position read hlt ih =>
      have hbound : position < bytes.data.toList.length := by simpa using hlt
      rw [ih, List.drop_eq_getElem_cons hbound]
      simp [ByteArray.get!, hlt]
  | case2 position read hge =>
      have hend : bytes.data.toList.length ≤ position := by simpa using hge
      simp [List.drop_eq_nil_of_le hend]

/-- The bytes of a text are those of its characters. -/
theorem encode_eq (text : String) : encode text = text.toList.flatMap String.utf8EncodeChar := by
  show text.toByteArray.toList = _
  rw [← String.utf8Encode_toList, List.utf8Encode, ByteArray.toList, byteArray_toList_loop,
    List.toList_data_toByteArray]
  rfl

theorem length_encode_le (text : String) : (encode text).length ≤ 4 * text.toList.length := by
  rw [encode_eq]
  induction text.toList with
  | nil => exact Nat.le_refl 0
  | cons c rest ih =>
      have hsize := c.utf8Size_le_four
      simp only [List.flatMap_cons, List.length_append, String.length_utf8EncodeChar,
        List.length_cons]
      omega

/-! ## One character -/

theorem toNat_ofNat_of_lt {value : Nat} (h : value < 256) : (UInt8.ofNat value).toNat = value := by
  rw [UInt8.toNat_ofNat']
  omega

theorem leadByte?_two : ∀ high < 32, 2 ≤ high →
    leadByte? (UInt8.ofNat (high + 0xC0)) = some (2, 0x80, 0xBF) := by
  decide

theorem leadByte?_three : ∀ high < 16, leadByte? (UInt8.ofNat (high + 0xE0)) =
    some (3, if high = 0 then 0xA0 else 0x80, if high = 13 then 0x9F else 0xBF) := by
  decide

theorem leadByte?_four : ∀ high < 5, leadByte? (UInt8.ofNat (high + 0xF0)) =
    some (4, if high = 0 then 0x90 else 0x80, if high = 4 then 0x8F else 0xBF) := by
  decide

theorem isContinuation_ofNat (value : Nat) :
    isContinuation (UInt8.ofNat (value % 0x40 + 0x80)) = true := by
  have hbyte : (UInt8.ofNat (value % 0x40 + 0x80)).toNat = value % 0x40 + 0x80 :=
    toNat_ofNat_of_lt (by omega)
  simp only [isContinuation, Bool.and_eq_true, decide_eq_true_eq, UInt8.le_iff_toNat_le, hbyte]
  exact ⟨by simp, by simp; omega⟩

theorem continuations_append {first low high : UInt8} {more : Bytes} (hlow : low ≤ first)
    (hhigh : first ≤ high) (hmore : ∀ byte ∈ more, isContinuation byte = true) (rest : Bytes) :
    continuations (more.length + 1) low high (first :: (more ++ rest)) = first :: more := by
  simp [continuations, hlow, hhigh, List.takeWhile_append_of_pos hmore]

theorem leadByte?_ascii : ∀ value < 0x80, leadByte? (UInt8.ofNat value) = none := by
  decide

/-- A lead byte with what it asks for is one character. -/
theorem nextChar_of_leadByte? {lead first low high : UInt8} {more : Bytes}
    (hlead : leadByte? lead = some (more.length + 2, low, high)) (hlow : low ≤ first)
    (hhigh : first ≤ high) (hmore : ∀ byte ∈ more, isContinuation byte = true) (rest : Bytes) :
    nextChar lead (first :: (more ++ rest)) =
      (some (assemble lead (first :: more)), more.length + 2) := by
  have hascii : ¬ lead < 0x80 := by
    intro hlt
    have hnone := leadByte?_ascii lead.toNat (UInt8.lt_iff_toNat_lt.mp hlt)
    rw [UInt8.ofNat_toNat, hlead] at hnone
    simp at hnone
  have htail : continuations (more.length + 2 - 1) low high (first :: (more ++ rest)) =
      first :: more := continuations_append hlow hhigh hmore rest
  rw [nextChar, if_neg hascii, hlead]
  simp only [htail, List.length_cons, if_true]

theorem nextChar_one {value : Nat} (h : value ≤ 0x7F) (rest : Bytes) :
    nextChar (UInt8.ofNat value) rest = (some (Char.ofNat value), 1) := by
  have hbyte : (UInt8.ofNat value).toNat = value := toNat_ofNat_of_lt (by omega)
  have hascii : UInt8.ofNat value < 0x80 := by
    rw [UInt8.lt_iff_toNat_lt, hbyte]
    simp
    omega
  rw [nextChar, if_pos hascii, hbyte]

theorem nextChar_two {value : Nat} (h : 0x7F < value) (h' : value ≤ 0x7FF) (rest : Bytes) :
    nextChar (UInt8.ofNat (value / 64 % 0x20 + 0xC0))
        (UInt8.ofNat (value % 0x40 + 0x80) :: rest) = (some (Char.ofNat value), 2) := by
  have hlead := leadByte?_two (value / 64 % 0x20) (by omega) (by omega)
  have hfirst := isContinuation_ofNat value
  simp only [isContinuation, Bool.and_eq_true, decide_eq_true_eq] at hfirst
  have hnext := @nextChar_of_leadByte? _ _ _ _ [] hlead hfirst.1 hfirst.2 (by simp) rest
  rw [List.nil_append] at hnext
  rw [hnext]
  have hvalue : (value / 64 % 0x20 + 0xC0) % 32 * 64 + (value % 0x40 + 0x80) % 64 = value := by
    omega
  simp only [assemble, List.length_cons, List.length_nil, List.foldl_cons, List.foldl_nil,
    toNat_ofNat_of_lt (show value / 64 % 0x20 + 0xC0 < 256 by omega),
    toNat_ofNat_of_lt (show value % 0x40 + 0x80 < 256 by omega), hvalue]

theorem nextChar_three {value : Nat} (hvalid : value.isValidChar) (h : 0x7FF < value)
    (h' : value ≤ 0xFFFF) (rest : Bytes) :
    nextChar (UInt8.ofNat (value / 4096 % 0x10 + 0xE0))
        (UInt8.ofNat (value / 64 % 0x40 + 0x80) :: UInt8.ofNat (value % 0x40 + 0x80) :: rest) =
      (some (Char.ofNat value), 3) := by
  have hlead := leadByte?_three (value / 4096 % 0x10) (by omega)
  have hfirst : (UInt8.ofNat (value / 64 % 0x40 + 0x80)).toNat = value / 64 % 0x40 + 0x80 :=
    toNat_ofNat_of_lt (by omega)
  have hlow : (if value / 4096 % 0x10 = 0 then 0xA0 else 0x80) ≤
      UInt8.ofNat (value / 64 % 0x40 + 0x80) := by
    rw [UInt8.le_iff_toNat_le, hfirst]
    split
    · simp
      omega
    · simp
  have hhigh : UInt8.ofNat (value / 64 % 0x40 + 0x80) ≤
      (if value / 4096 % 0x10 = 13 then 0x9F else 0xBF) := by
    rw [UInt8.le_iff_toNat_le, hfirst]
    unfold Nat.isValidChar at hvalid
    split <;> simp <;> omega
  have hmore : ∀ byte ∈ [UInt8.ofNat (value % 0x40 + 0x80)], isContinuation byte = true := by
    intro byte hmem
    rw [List.mem_singleton.mp hmem]
    exact isContinuation_ofNat value
  have hnext := nextChar_of_leadByte? hlead hlow hhigh hmore rest
  rw [List.singleton_append] at hnext
  rw [hnext]
  have hvalue : ((value / 4096 % 0x10 + 0xE0) % 16 * 64 + (value / 64 % 0x40 + 0x80) % 64) * 64 +
      (value % 0x40 + 0x80) % 64 = value := by
    omega
  simp only [assemble, List.length_cons, List.length_nil, List.foldl_cons, List.foldl_nil, hfirst,
    toNat_ofNat_of_lt (show value / 4096 % 0x10 + 0xE0 < 256 by omega),
    toNat_ofNat_of_lt (show value % 0x40 + 0x80 < 256 by omega), hvalue]

theorem nextChar_four {value : Nat} (hvalid : value.isValidChar) (h : 0xFFFF < value)
    (rest : Bytes) :
    nextChar (UInt8.ofNat (value / 262144 % 0x08 + 0xF0))
        (UInt8.ofNat (value / 4096 % 0x40 + 0x80) :: UInt8.ofNat (value / 64 % 0x40 + 0x80) ::
          UInt8.ofNat (value % 0x40 + 0x80) :: rest) =
      (some (Char.ofNat value), 4) := by
  unfold Nat.isValidChar at hvalid
  have hlead := leadByte?_four (value / 262144 % 0x08) (by omega)
  have hfirst : (UInt8.ofNat (value / 4096 % 0x40 + 0x80)).toNat = value / 4096 % 0x40 + 0x80 :=
    toNat_ofNat_of_lt (by omega)
  have hlow : (if value / 262144 % 0x08 = 0 then 0x90 else 0x80) ≤
      UInt8.ofNat (value / 4096 % 0x40 + 0x80) := by
    rw [UInt8.le_iff_toNat_le, hfirst]
    split
    · simp
      omega
    · simp
  have hhigh : UInt8.ofNat (value / 4096 % 0x40 + 0x80) ≤
      (if value / 262144 % 0x08 = 4 then 0x8F else 0xBF) := by
    rw [UInt8.le_iff_toNat_le, hfirst]
    split <;> simp <;> omega
  have hmore : ∀ byte ∈ [UInt8.ofNat (value / 64 % 0x40 + 0x80),
      UInt8.ofNat (value % 0x40 + 0x80)], isContinuation byte = true := by
    intro byte hmem
    rcases List.mem_cons.mp hmem with rfl | hmem
    · exact isContinuation_ofNat (value / 64)
    · rw [List.mem_singleton.mp hmem]
      exact isContinuation_ofNat value
  have hnext := nextChar_of_leadByte? hlead hlow hhigh hmore rest
  rw [List.cons_append, List.singleton_append] at hnext
  rw [hnext]
  have hvalue : (((value / 262144 % 0x08 + 0xF0) % 8 * 64 +
      (value / 4096 % 0x40 + 0x80) % 64) * 64 + (value / 64 % 0x40 + 0x80) % 64) * 64 +
        (value % 0x40 + 0x80) % 64 = value := by
    omega
  simp only [assemble, List.length_cons, List.length_nil, List.foldl_cons, List.foldl_nil, hfirst,
    toNat_ofNat_of_lt (show value / 262144 % 0x08 + 0xF0 < 256 by omega),
    toNat_ofNat_of_lt (show value / 64 % 0x40 + 0x80 < 256 by omega),
    toNat_ofNat_of_lt (show value % 0x40 + 0x80 < 256 by omega), hvalue]

/-- Every character is read back from its bytes, whatever follows. -/
theorem nextChar_utf8EncodeChar (c : Char) : ∃ lead tail,
    String.utf8EncodeChar c = lead :: tail ∧
      ∀ rest, nextChar lead (tail ++ rest) = (some c, tail.length + 1) := by
  obtain ⟨value, hvalue⟩ : ∃ value, c.val.toNat = value := ⟨_, rfl⟩
  have hvalid : value.isValidChar := hvalue ▸ c.valid
  have hchar : c = Char.ofNat value := by
    rw [← hvalue]
    exact (Char.ofNat_toNat c).symm
  rw [String.utf8EncodeChar, hvalue, hchar]
  split
  · rename_i hone
    exact ⟨_, [], rfl, nextChar_one hone⟩
  split
  · rename_i hone htwo
    exact ⟨_, [_], rfl, nextChar_two (Nat.not_le.mp hone) htwo⟩
  split
  · rename_i htwo hthree
    exact ⟨_, [_, _], rfl, nextChar_three hvalid (Nat.not_le.mp htwo) hthree⟩
  · rename_i hthree
    exact ⟨_, [_, _, _], rfl, nextChar_four hvalid (Nat.not_le.mp hthree)⟩

/-! ## Whole texts -/

theorem decodeChars_encoded (chars : List Char) {fuel : Nat}
    (h : (chars.flatMap String.utf8EncodeChar).length ≤ fuel) :
    decodeChars fuel (chars.flatMap String.utf8EncodeChar) = chars.map some := by
  induction chars generalizing fuel with
  | nil => cases fuel <;> rfl
  | cons c rest ih =>
      obtain ⟨lead, tail, hencoded, hnext⟩ := nextChar_utf8EncodeChar c
      rw [List.flatMap_cons, hencoded] at h ⊢
      simp only [List.cons_append, List.length_cons, List.length_append] at h
      obtain ⟨fuel, rfl⟩ : ∃ less, fuel = less + 1 := ⟨fuel - 1, by omega⟩
      rw [List.cons_append, decodeChars, hnext]
      simp only [Nat.add_sub_cancel, List.drop_left, List.map_cons]
      rw [ih (by omega)]

theorem decodeChars_encode (text : String) :
    decodeChars (encode text).length (encode text) = text.toList.map some := by
  rw [encode_eq]
  exact decodeChars_encoded text.toList (Nat.le_refl _)

/-- Nothing in the bytes of a text is replaced. -/
theorem decodeLossy_encode (text : String) : decodeLossy (encode text) = text := by
  rw [decodeLossy, decodeChars_encode, List.map_map]
  show String.ofList (text.toList.map id) = text
  rw [List.map_id, String.ofList_toList]

/-- The bytes of a text read back as the text. -/
theorem decode?_encode (text : String) : decode? (encode text) = some text := by
  have hall : ∀ chars : List Char, (chars.map some).mapM id = some chars := by
    intro chars
    induction chars with
    | nil => rfl
    | cons c rest ih => simp [List.mapM_cons, ih]
  rw [decode?, decodeChars_encode, hall]
  simp

end LogRelay.Text
