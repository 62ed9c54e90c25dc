import LogRelay.Proofs.WellTyped

/-!
# Sizes of encodings

The head of a list of parts has the size that the distances in it are counted with
(`AbiValue.length_heads`), and with the tail it holds every part.  So the encoding of a value
has at least as many words as its type asks for, which is what the decoder counts before it
reads (`AbiType.le_length_encode`).
-/

namespace LogRelay

namespace AbiValue

theorem length_heads (position : Nat) (parts : List Part) :
    (heads position parts).length = headSize parts := by
  induction parts generalizing position with
  | nil => rfl
  | cons part rest ih =>
      rw [heads, headSize, List.foldr_cons, ← headSize, Part.headSize]
      split
      · rw [List.length_append, Word.length_bytes, ih]
      · rw [List.length_append, ih]

theorem tails_cons_moved (content : Bytes) (rest : List Part) :
    tails (⟨content, true⟩ :: rest) = content ++ tails rest := by
  simp [tails]

theorem tails_cons_inPlace (content : Bytes) (rest : List Part) :
    tails (⟨content, false⟩ :: rest) = tails rest := by
  simp [tails]

theorem length_layOut_cons (part : Part) (rest : List Part) :
    part.content.length + (layOut rest).length ≤ (layOut (part :: rest)).length := by
  simp only [layOut, List.length_append, length_heads]
  obtain ⟨content, moved⟩ := part
  cases moved with
  | true =>
      rw [tails_cons_moved, List.length_append]
      simp only [headSize, List.foldr_cons]
      omega
  | false =>
      rw [tails_cons_inPlace]
      simp only [headSize, List.foldr_cons, Part.headSize, Bool.false_eq_true, if_false]
      omega

theorem length_packed (bytes : Bytes) : 32 + bytes.length ≤ (packed bytes).length := by
  simp only [packed, List.length_append, Word.length_bytes]
  omega

/-- Without dynamic values there is no tail. -/
theorem tails_of_someDynamic {values : List AbiValue} (h : someDynamic values = false) :
    tails (parts values) = [] := by
  induction values with
  | nil => rfl
  | cons value rest ih =>
      rw [someDynamic, Bool.or_eq_false_iff] at h
      rw [parts, h.1, tails_cons_inPlace, ih h.2]

end AbiValue

namespace AbiType

theorem le_length_layOut {types : List AbiType} {values : List AbiValue}
    (h : ∀ type ∈ types, ∀ value, type.Admits value →
      32 * type.leastWords ≤ value.encode.length)
    (hvalues : AdmitAll types values) :
    32 * sumLeastWords types ≤ (AbiValue.layOut (AbiValue.parts values)).length := by
  induction types generalizing values with
  | nil => exact Nat.zero_le _
  | cons type types ih =>
      rw [AdmitAll] at hvalues
      obtain ⟨value, rest, rfl, hvalue, hrest⟩ := hvalues
      obtain ⟨hfirst, hmore⟩ := List.forall_mem_cons.mp h
      have hhead := hfirst value hvalue
      have htail := ih hmore hrest
      calc 32 * sumLeastWords (type :: types)
          = 32 * type.leastWords + 32 * sumLeastWords types := by
            rw [sumLeastWords, Nat.mul_add]
        _ ≤ value.encode.length + (AbiValue.layOut (AbiValue.parts rest)).length :=
            Nat.add_le_add hhead htail
        _ ≤ _ := AbiValue.length_layOut_cons ⟨value.encode, value.isDynamic⟩ _

/-- The encoding of a value has the words that its type has at least. -/
theorem le_length_encode {type : AbiType} {value : AbiValue} (h : type.Admits value) :
    32 * type.leastWords ≤ value.encode.length := by
  induction type using wordInduction generalizing value with
  | word type hword =>
      obtain ⟨word, hvalue⟩ := h.word? hword
      rw [AbiValue.encode_of_word? hvalue, leastWords_of_isWord hword]
      exact Nat.le_of_eq word.length_bytes.symm
  | bytes =>
      obtain ⟨content, rfl⟩ := h
      have hlength := AbiValue.length_packed content
      rw [AbiValue.encode, leastWords]
      · omega
      all_goals simp
  | string =>
      obtain ⟨text, rfl⟩ := h
      have hlength := AbiValue.length_packed (Text.encode text)
      rw [AbiValue.encode, leastWords]
      · omega
      all_goals simp
  | array element ih =>
      rw [Admits] at h
      obtain ⟨items, rfl, -⟩ := h
      rw [AbiValue.encode, leastWords, List.length_append, Word.length_bytes]
      · omega
      all_goals simp
  | fixedArray element length ih =>
      rw [Admits] at h
      obtain ⟨items, rfl, hitems⟩ := h
      rw [AbiValue.encode, leastWords, ← sumLeastWords_replicate]
      exact le_length_layOut (List.forall_mem_replicate.mpr (.inr fun _ => ih))
        (admitAll_replicate.mpr hitems)
  | tuple elements ih =>
      rw [Admits] at h
      obtain ⟨items, rfl, hitems⟩ := h
      rw [AbiValue.encode, leastWords]
      exact le_length_layOut (fun type hmem value hvalue => ih type hmem hvalue) hitems

end AbiType

end LogRelay
