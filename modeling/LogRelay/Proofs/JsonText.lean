import LogRelay.Json.Writer
import LogRelay.Proofs.JsonValues
import LogRelay.Proofs.TimestampText

/-!
# Reading back the text of a value

Bytes are read back from their digits, texts from what stands between quotes, and whole
numbers from their decimal digits.  So every value that is plain for what is expected of
it (`IsPlain`) is read back from its text (`read?_render`); what follows an item or a
member does not matter, by `inFront`.

An object can be put together from members whose values are already written.  If each
of them is read on its own, the object is read as the list of all of them
(`read?_assemble`).
-/

namespace LogRelay

/-! ## Bytes -/

namespace Hex

theorem digitValue?_digit : ∀ value < 16, digitValue? (digit value) = some value := by
  decide

theorem decodeChars?_encodeChars (bytes : Bytes) :
    decodeChars? (encodeChars bytes) = some bytes := by
  induction bytes with
  | nil => rfl
  | cons byte bytes ih =>
    have hbyte : byte.toNat < 256 := byte.toNat_lt
    have hhigh := digitValue?_digit (byte.toNat / 16) (by omega)
    have hlow := digitValue?_digit (byte.toNat % 16) (by omega)
    have hvalue : UInt8.ofNat (byte.toNat / 16 * 16 + byte.toNat % 16) = byte := by
      rw [Nat.div_add_mod', UInt8.ofNat_toNat]
    change decodeChars?
      (digit (byte.toNat / 16) :: digit (byte.toNat % 16) :: encodeChars bytes) = _
    simp only [decodeChars?, hhigh, hlow, ih, Option.bind_eq_bind, Option.bind_some, hvalue]
    rfl

theorem decode?_encode (bytes : Bytes) : decode? (encode bytes) = some bytes := by
  have htext : (encode bytes).toList = '0' :: 'x' :: encodeChars bytes := by
    simp [encode, digits]
  rw [decode?, htext]
  exact decodeChars?_encodeChars bytes

end Hex

namespace Json

/-! ## Texts -/

theorem unit?_digits {value : Nat} (h : value < 0x20) (text : List Char) :
    unit? ('0' :: '0' :: Hex.digit (value / 16) :: Hex.digit (value % 16) :: text) =
      some (value, text) := by
  have hhigh := Hex.digitValue?_digit (value / 16) (by omega)
  have hlow := Hex.digitValue?_digit (value % 16) (by omega)
  have hzero : Hex.digitValue? '0' = some 0 := rfl
  have hvalue : value / 16 * 16 + value % 16 = value := Nat.div_add_mod' ..
  simp [unit?, hzero, hhigh, hlow, hvalue]

/-- A character stands for itself, or after a backslash for what the escape is read as. -/
theorem escape_cases (c : Char) :
    (escape c = [c] ∧ c ≠ '"' ∧ c ≠ '\\' ∧ ¬c.toNat < 0x20) ∨
    ∃ body, escape c = '\\' :: body ∧ ∀ text, escape? (body ++ text) = some (some c, text) := by
  by_cases hletter : c ∈ ['"', '\\', '\x08', '\x0c', '\n', '\r', '\t']
  · simp only [List.mem_cons, List.not_mem_nil, or_false] at hletter
    rcases hletter with rfl | rfl | rfl | rfl | rfl | rfl | rfl <;>
      exact .inr ⟨_, rfl, fun _ => rfl⟩
  simp only [List.mem_cons, List.not_mem_nil, or_false, not_or] at hletter
  obtain ⟨hquote, hbackslash, hback, hfeed, hline, hreturn, htab⟩ := hletter
  by_cases hcontrol : c.toNat < 0x20
  · refine .inr ⟨['u', '0', '0', Hex.digit (c.toNat / 16), Hex.digit (c.toNat % 16)], ?_,
      fun text => ?_⟩
    · simp [escape, hquote, hbackslash, hback, hfeed, hline, hreturn, htab, hcontrol]
    have hhigh : isHighHalf c.toNat = false := by simp [isHighHalf]; omega
    have hlow : isLowHalf c.toNat = false := by simp [isLowHalf]; omega
    simp [escape?, unicode?, unit?_digits hcontrol, hhigh, hlow, Char.ofNat_toNat]
  · refine .inl ⟨?_, hquote, hbackslash, hcontrol⟩
    simp [escape, hquote, hbackslash, hback, hfeed, hline, hreturn, htab, hcontrol]

theorem characters?_escape (c : Char) (fuel : Nat) (text : List Char) :
    characters? (fuel + 1) (escape c ++ text) =
      (characters? fuel text).map fun (following, rest) => (following.map (c :: ·), rest) := by
  obtain ⟨hself, hquote, hbackslash, hcontrol⟩ | ⟨body, hbody, hread⟩ := escape_cases c
  · rw [hself, List.singleton_append, characters?_of_ne hquote hbackslash, if_neg hcontrol]
  · rw [hbody, List.cons_append]
    simp only [characters?, hread, Option.bind_eq_bind, Option.bind_some, Option.map_eq_bind]
    rfl

theorem characters?_flatMap_escape (text tail : List Char) {fuel : Nat}
    (hfuel : text.length < fuel) :
    characters? fuel (text.flatMap escape ++ '"' :: tail) = some (some text, tail) := by
  induction text generalizing fuel with
  | nil =>
    obtain ⟨fuel, rfl⟩ : ∃ least, fuel = least + 1 := ⟨fuel - 1, by omega⟩
    rfl
  | cons c text ih =>
    obtain ⟨fuel, rfl⟩ : ∃ least, fuel = least + 1 := ⟨fuel - 1, by omega⟩
    have hfuel : text.length < fuel := by simpa using hfuel
    rw [List.flatMap_cons, List.append_assoc, characters?_escape, ih hfuel]
    rfl

theorem length_le_flatMap_escape (text : List Char) :
    text.length ≤ (text.flatMap escape).length := by
  induction text with
  | nil => rfl
  | cons c text ih =>
    have hc : 0 < (escape c).length := by
      obtain ⟨hself, -⟩ | ⟨body, hbody, -⟩ := escape_cases c
      · simp [hself]
      · simp [hbody]
    simp only [List.flatMap_cons, List.length_append, List.length_cons]
    omega

theorem string?_quote (text : String) (tail : List Char) :
    string? (quote text ++ tail) = some (some text, tail) := by
  have hlength := length_le_flatMap_escape text.toList
  have hcharacters := characters?_flatMap_escape text.toList tail
    (show _ < (text.toList.flatMap escape ++ '"' :: tail).length + 1 by
      simp only [List.length_append]; omega)
  simp only [quote, List.cons_append, List.append_assoc, List.nil_append, string?, hcharacters,
    Option.bind_eq_bind, Option.bind_some, Option.map_some, String.ofList_toList]
  rfl

/-! ## Numbers -/

namespace Number

theorem exists_toDigits_cons (value : Nat) :
    ∃ first more, Nat.toDigits 10 value = first :: more ∧ first.isDigit = true := by
  obtain ⟨first, more, hdigits⟩ := List.exists_cons_of_ne_nil (@Nat.toDigits_ne_nil value 10)
  have hmem : first ∈ Nat.toDigits 10 value := hdigits ▸ List.mem_cons_self
  exact ⟨first, more, hdigits, Nat.isDigit_of_mem_toDigits (by decide) (by decide) hmem⟩

theorem head?_toDigits_ne_zero {value : Nat} (h : 0 < value) :
    (Nat.toDigits 10 value).head? ≠ some '0' := by
  induction value using Nat.strongRecOn with
  | ind value ih =>
    by_cases hsmall : value < 10
    · have hdigit : ∀ value < 10, 0 < value → [Nat.digitChar value].head? ≠ some '0' := by decide
      rw [Nat.toDigits_of_lt_base hsmall]
      exact hdigit value hsmall h
    · -- the first digit is that of a tenth of the number
      have htenth := ih (value / 10) (by omega) (by omega)
      obtain ⟨first, more, hdigits, -⟩ := exists_toDigits_cons (value / 10)
      rw [hdigits] at htenth
      rw [Nat.toDigits_of_base_le (by decide) (by omega), hdigits]
      exact htenth

theorem le_ofDigitChars (digits : List Char) (value : Nat) :
    value ≤ Nat.ofDigitChars 10 digits value := by
  induction digits generalizing value with
  | nil => exact le_rfl
  | cons digit digits ih =>
    rw [Nat.ofDigitChars_cons]
    exact le_trans (by omega) (ih _)

/-- All digits are in the significand if the number fits. -/
theorem wholePart_eq (significand : Nat) (digits : List Char)
    (h : Nat.ofDigitChars 10 digits significand ≤ Decimal.greatestUInt64) :
    wholePart significand digits = (Nat.ofDigitChars 10 digits significand, 0) := by
  induction digits generalizing significand with
  | nil => rfl
  | cons digit digits ih =>
    have hdigit : digit.toNat - '0'.toNat = Decimal.digitValue digit := rfl
    rw [Nat.ofDigitChars_cons, Nat.mul_comm 10, hdigit] at h ⊢
    have hpush : push? significand digit = some (significand * 10 + Decimal.digitValue digit) := by
      unfold push?
      exact if_pos (Nat.le_trans (le_ofDigitChars digits _) h)
    rw [wholePart, hpush]
    exact ih _ h

theorem spanDigits_toDigits (value : Nat) :
    Decimal.spanDigits (Nat.toDigits 10 value) = (Nat.toDigits 10 value, []) := by
  have hdigits : ∀ c ∈ Nat.toDigits 10 value, c.isDigit = true :=
    fun c hc => Nat.isDigit_of_mem_toDigits (by decide) (by decide) hc
  rw [Decimal.spanDigits, List.span_eq_takeWhile_dropWhile, List.takeWhile_eq_self_iff.mpr hdigits,
    List.dropWhile_eq_nil_iff.mpr hdigits]

/-- The digits of a number have no leading zero that would have to stand alone. -/
theorem not_leading_zero (value : Nat) : ¬((Nat.toDigits 10 value).isEmpty ||
    (1 < (Nat.toDigits 10 value).length && (Nat.toDigits 10 value).head? == some '0')) := by
  rcases Nat.eq_zero_or_pos value with rfl | hpos
  · decide
  · simp [head?_toDigits_ne_zero hpos, Nat.toDigits_ne_nil]

theorem unsigned?_toDigits {negative : Bool} {value : Nat} (h : value ≤ Decimal.greatestUInt64) :
    unsigned? negative (Nat.toDigits 10 value) = some (⟨negative, value, 0, true⟩, []) := by
  have hwhole := wholePart_eq 0 (Nat.toDigits 10 value)
  rw [Nat.ofDigitChars_ten_toDigits] at hwhole
  have hparts :
      ofParts negative (Nat.toDigits 10 value) none none = ⟨negative, value, 0, true⟩ := by
    simp only [ofParts, hwhole h]
    rfl
  simp only [unsigned?, spanDigits_toDigits]
  rw [if_neg (not_leading_zero value)]
  exact congrArg (fun number => some (number, [])) hparts

/-- A whole number of 64 bits is read back from its sign and its digits. -/
theorem read?_chars {negative : Bool} {value : Nat} (h : value ≤ Decimal.greatestUInt64) :
    read? (chars ⟨negative, value, 0, true⟩) = some (⟨negative, value, 0, true⟩, []) := by
  cases negative with
  | true => exact unsigned?_toDigits h
  | false =>
    obtain ⟨first, more, hdigits, hfirst⟩ := exists_toDigits_cons value
    have hsign : first ≠ '-' := fun heq => absurd (heq ▸ hfirst) (by decide)
    have hread : read? (Nat.toDigits 10 value) = unsigned? false (Nat.toDigits 10 value) := by
      rw [hdigits, read?_of_ne hsign]
    exact hread.trans (unsigned?_toDigits h)

end Number

/-! ## Values -/

mutual

/-- Whether a value is read back from its text where the form is expected: its numbers are whole
and fit in 64 bits, and no list of it stands for a fixed number of bytes. -/
def IsPlain (form : Form) : Json → Prop
  | number value =>
      value.exponent = 0 ∧ value.whole = true ∧ value.significand ≤ Decimal.greatestUInt64
  | list items => (∀ size, form ≠ .word size) ∧ ArePlain form 0 items
  | object members => MembersArePlain form members
  | verbatim _ => False
  | _ => True

/-- Whether the items of a list are plain, from the given place on. -/
def ArePlain (form : Form) (place : Nat) : List Json → Prop
  | [] => True
  | item :: rest => IsPlain (form.ofItem place) item ∧ ArePlain form (place + 1) rest

/-- Whether the values of all members are plain. -/
def MembersArePlain (form : Form) : List (String × Json) → Prop
  | [] => True
  | (name, value) :: rest => IsPlain (form.ofMember name) value ∧ MembersArePlain form rest

end

theorem Number.exists_chars_cons (number : Number) :
    ∃ c rest, number.chars = c :: rest ∧ (c = '-' ∨ c.isDigit = true) := by
  obtain ⟨negative, significand, exponent, whole⟩ := number
  cases negative with
  | true => exact ⟨'-', _, rfl, .inl rfl⟩
  | false =>
    obtain ⟨first, more, hdigits, hfirst⟩ := exists_toDigits_cons significand
    exact ⟨first, more, hdigits, .inr hfirst⟩

theorem not_mem_of_number {c : Char} (h : c = '-' ∨ c.isDigit = true) :
    c ∉ [' ', '\n', '\t', '\r', ']', 'n', 't', 'f', '"', '[', '\x7b'] := by
  intro hmem
  simp only [List.mem_cons, List.not_mem_nil, or_false] at hmem
  rcases h with rfl | hdigit
  · simp at hmem
  · rcases hmem with rfl | rfl | rfl | rfl | rfl | rfl | rfl | rfl | rfl | rfl | rfl <;>
      exact absurd hdigit (by decide)

/-- The text of a plain value starts with a character that starts a value. -/
theorem exists_chars_cons {form : Form} {json : Json} (h : IsPlain form json) :
    ∃ c rest, json.chars = c :: rest ∧ isSpace c = false ∧ c ≠ ']' := by
  cases json with
  | verbatim written => exact h.elim
  | number value =>
    obtain ⟨c, rest, hchars, hc⟩ := value.exists_chars_cons
    have hmem := not_mem_of_number hc
    simp only [List.mem_cons, List.not_mem_nil, or_false, not_or] at hmem
    refine ⟨c, rest, hchars, ?_, hmem.2.2.2.2.1⟩
    simp [isSpace, hmem]
  | null => exact ⟨'n', _, rfl, rfl, by decide⟩
  | bool value => cases value <;> exact ⟨_, _, rfl, rfl, by decide⟩
  | string value => exact ⟨'"', _, rfl, rfl, by decide⟩
  | list items => exact ⟨'[', _, rfl, rfl, by decide⟩
  | object members => exact ⟨'\x7b', _, rfl, rfl, by decide⟩

/-! Each of the mutual readers, one item or member at a time. -/

section

variable {fuel place : Nat} {form : Form} {text after rest last : List Char} {item value : Json}
  {items : List Json} {name : String} {members : List (String × Json)}

theorem items?_of_comma (hitem : value? fuel (form.ofItem place) text = some (item, after))
    (hcomma : skip after = ',' :: rest)
    (hrest : items? fuel form (place + 1) (skip rest) = some (items, last)) :
    items? (fuel + 1) form place text = some (item :: items, last) := by
  simp [items?, hitem, hcomma, hrest]

theorem items?_of_bracket (hitem : value? fuel (form.ofItem place) text = some (item, after))
    (hbracket : skip after = ']' :: rest) :
    items? (fuel + 1) form place text = some ([item], rest) := by
  simp [items?, hitem, hbracket]

theorem members?_of_comma
    (hvalue : value? fuel (form.ofMember name) (skip text) = some (value, after))
    (hcomma : skip after = ',' :: rest)
    (hrest : members? fuel form (skip rest) = some (some members, last)) :
    members? (fuel + 1) form (quote name ++ ':' :: text) =
      some (some ((name, value) :: members), last) := by
  have hcolon : skip (':' :: text) = ':' :: text := rfl
  simp [members?, string?_quote, hcolon, hvalue, hcomma, hrest]

theorem members?_of_brace
    (hvalue : value? fuel (form.ofMember name) (skip text) = some (value, after))
    (hbrace : skip after = '\x7d' :: rest) :
    members? (fuel + 1) form (quote name ++ ':' :: text) = some (some [(name, value)], rest) := by
  have hcolon : skip (':' :: text) = ':' :: text := rfl
  simp [members?, string?_quote, hcolon, hvalue, hbrace]

end

theorem skip_chars {form : Form} {json : Json} (h : IsPlain form json) (tail : List Char) :
    skip (json.chars ++ tail) = json.chars ++ tail := by
  obtain ⟨c, rest, hchars, hspace, -⟩ := exists_chars_cons h
  rw [hchars, List.cons_append, skip, List.dropWhile_cons_of_neg (by simp [hspace])]

theorem itemChars_cons_cons (item second : Json) (items : List Json) :
    itemChars (item :: second :: items) = item.chars ++ ',' :: itemChars (second :: items) := rfl

theorem memberChars_cons_cons (name : String) (value : Json) (second : String × Json)
    (members : List (String × Json)) :
    memberChars ((name, value) :: second :: members) =
      quote name ++ ':' :: (value.chars ++ ',' :: memberChars (second :: members)) := rfl

theorem itemChars_cons (item : Json) (items : List Json) :
    ∃ rest, itemChars (item :: items) = item.chars ++ rest := by
  cases items with
  | nil => exact ⟨[], (List.append_nil _).symm⟩
  | cons second items => exact ⟨_, rfl⟩

theorem skip_itemChars {form : Form} {place : Nat} {item : Json} {items : List Json}
    (h : ArePlain form place (item :: items)) (tail : List Char) :
    skip (itemChars (item :: items) ++ tail) = itemChars (item :: items) ++ tail := by
  obtain ⟨rest, hrest⟩ := itemChars_cons item items
  rw [hrest, List.append_assoc, skip_chars h.1]

theorem skip_memberChars (member : String × Json) (members : List (String × Json))
    (tail : List Char) :
    skip (memberChars (member :: members) ++ tail) = memberChars (member :: members) ++ tail := by
  cases members <;> rfl

mutual

/-- A plain value is read back from its text. -/
theorem value?_chars {form : Form} (json : Json) (h : IsPlain form json) {fuel : Nat}
    (hfuel : json.chars.length < fuel) : value? fuel form json.chars = some (json, []) := by
  obtain ⟨fuel, rfl⟩ : ∃ least, fuel = least + 1 := ⟨fuel - 1, by omega⟩
  match json with
  | null => rfl
  | bool true => rfl
  | bool false => rfl
  | number ⟨negative, significand, exponent, whole⟩ =>
    obtain ⟨rfl, rfl, hvalue⟩ : exponent = 0 ∧ whole = true ∧ significand ≤ _ := h
    have hread : Number.read? (Number.chars ⟨negative, significand, 0, true⟩) = _ :=
      Number.read?_chars hvalue
    obtain ⟨c, rest, hchars, hc⟩ := Number.exists_chars_cons ⟨negative, significand, 0, true⟩
    have hmem := not_mem_of_number hc
    simp only [chars, hchars] at hread ⊢
    rw [value?_number (fun h => hmem (by simp_all)), hread]
    rfl
  | string value =>
    have hread := string?_quote value []
    rw [List.append_nil] at hread
    change (string? (quote value)).map _ = _
    rw [hread]
    rfl
  | list [] => exact value?_list h.1 fuel [']']
  | list (item :: items) =>
    obtain ⟨hform, hplain⟩ := h
    have hread := items?_itemChars (item :: items) (by simp) hplain
      (show _ < fuel by simp [chars] at hfuel; omega)
    obtain ⟨c, rest, hchars, -, hc⟩ := exists_chars_cons hplain.1
    obtain ⟨more, hmore⟩ := itemChars_cons item items
    rw [chars, value?_list hform, skip_itemChars hplain]
    split
    · next heq =>
      rw [hmore, hchars] at heq
      exact absurd (List.cons.inj heq).1 hc
    · rw [hread]
      rfl
  | object [] => rfl
  | object (member :: members) =>
    have hread := members?_memberChars (member :: members) (by simp) h
      (show _ < fuel by simp [chars] at hfuel; omega)
    rw [chars, value?_object, skip_memberChars]
    split
    · next heq => cases members <;> cases heq
    · rw [hread]
      rfl
  | verbatim written => exact h.elim

theorem items?_itemChars {form : Form} {place : Nat} (items : List Json) (hne : items ≠ [])
    (h : ArePlain form place items) {fuel : Nat} (hfuel : (itemChars items).length + 1 < fuel) :
    items? fuel form place (itemChars items ++ [']']) = some (items, []) := by
  obtain ⟨fuel, rfl⟩ : ∃ least, fuel = least + 1 := ⟨fuel - 1, by omega⟩
  match items with
  | [] => exact absurd rfl hne
  | [item] =>
    have hitem := (inFront _).1 (.bracket []) (value?_chars item h.1 (Nat.lt_succ_self _))
      (show _ ≤ fuel by simp only [itemChars] at hfuel; omega)
    exact items?_of_bracket hitem rfl
  | item :: second :: rest =>
    have hitem := (inFront _).1 (.comma (itemChars (second :: rest) ++ [']']))
      (value?_chars item h.1 (Nat.lt_succ_self _))
      (show _ ≤ fuel by simp [itemChars] at hfuel; omega)
    have hrest := items?_itemChars (second :: rest) (by simp) h.2
      (show _ < fuel by simp [itemChars] at hfuel ⊢; omega)
    rw [← skip_itemChars h.2] at hrest
    rw [itemChars_cons_cons, List.append_assoc]
    exact items?_of_comma hitem rfl hrest

theorem members?_memberChars {form : Form} (members : List (String × Json)) (hne : members ≠ [])
    (h : MembersArePlain form members) {fuel : Nat}
    (hfuel : (memberChars members).length + 1 < fuel) :
    members? fuel form (memberChars members ++ ['\x7d']) = some (some members, []) := by
  obtain ⟨fuel, rfl⟩ : ∃ least, fuel = least + 1 := ⟨fuel - 1, by omega⟩
  match members with
  | [] => exact absurd rfl hne
  | [(name, value)] =>
    have hvalue := (inFront _).1 (.brace []) (value?_chars value h.1 (Nat.lt_succ_self _))
      (show _ ≤ fuel by simp [memberChars] at hfuel; omega)
    rw [← skip_chars h.1] at hvalue
    rw [memberChars, List.append_assoc]
    exact members?_of_brace hvalue rfl
  | (name, value) :: second :: rest =>
    have hvalue := (inFront _).1 (.comma (memberChars (second :: rest) ++ ['\x7d']))
      (value?_chars value h.1 (Nat.lt_succ_self _))
      (show _ ≤ fuel by simp [memberChars] at hfuel; omega)
    have hrest := members?_memberChars (second :: rest) (by simp) h.2
      (show _ < fuel by simp [memberChars] at hfuel ⊢; omega)
    rw [← skip_chars h.1] at hvalue
    rw [← skip_memberChars] at hrest
    rw [memberChars_cons_cons, List.append_assoc, List.cons_append, List.append_assoc]
    exact members?_of_comma hvalue rfl hrest

end

theorem read?_eq_some_iff {form : Form} {text : String} {json : Json} :
    read? form text = some json ↔
      ∃ rest, value? (text.toList.length + 1) form (skip text.toList) = some (json, rest) ∧
        skip rest = [] := by
  simp only [read?, Option.bind_eq_bind, Option.bind_eq_some_iff, Prod.exists]
  constructor
  · rintro ⟨value, rest, hvalue, h⟩
    split at h
    · next hend =>
      cases h
      exact ⟨rest, hvalue, List.isEmpty_iff.mp hend⟩
    · cases h
  · rintro ⟨rest, hvalue, hend⟩
    exact ⟨json, rest, hvalue, by simp [hend]⟩

/-- A plain value is read back from its text. -/
theorem read?_render {form : Form} {json : Json} (h : IsPlain form json) :
    read? form json.render = some json := by
  have hskip := skip_chars h []
  rw [List.append_nil] at hskip
  refine read?_eq_some_iff.mpr ⟨[], ?_, rfl⟩
  rw [render, String.toList_ofList, hskip]
  exact value?_chars json h (Nat.lt_succ_self _)

/-! ## Objects whose members are written already -/

/-- The characters of members whose values are written already. -/
def writtenChars : List (String × String) → List Char
  | [] => []
  | [(name, value)] => quote name ++ ':' :: value.toList
  | (name, value) :: rest => quote name ++ ':' :: (value.toList ++ ',' :: writtenChars rest)

theorem intercalate_writtenChars (members : List (String × String)) :
    [','].intercalate (members.map fun (name, value) => quote name ++ ':' :: value.toList) =
      writtenChars members := by
  induction members with
  | nil => rfl
  | cons member members ih =>
    obtain ⟨name, value⟩ := member
    cases members with
    | nil => simp [writtenChars]
    | cons second members =>
      simp only [List.map_cons] at ih ⊢
      rw [List.intercalate_cons_cons, ih]
      simp [writtenChars]

theorem toList_assemble (members : List (String × String)) :
    (assemble members).toList = '\x7b' :: (writtenChars members ++ ['\x7d']) := by
  have hmembers : members.map (String.toList ∘ fun (name, value) =>
        String.ofList (quote name) ++ ":" ++ value) =
      members.map fun (name, value) => quote name ++ ':' :: value.toList :=
    List.map_congr_left fun _ _ => by simp
  simp only [assemble, String.toList_append, String.toList_intercalate, List.map_map, hmembers]
  exact congrArg (fun text => '\x7b' :: (text ++ ['\x7d'])) (intercalate_writtenChars members)

theorem writtenChars_map_render (members : List (String × Json)) :
    writtenChars (members.map fun (name, value) => (name, value.render)) = memberChars members := by
  induction members with
  | nil => rfl
  | cons member members ih =>
    obtain ⟨name, value⟩ := member
    cases members with
    | nil => simp [writtenChars, memberChars, render]
    | cons second members =>
      rw [memberChars_cons_cons, ← ih]
      simp [writtenChars, render]

theorem render_object (members : List (String × Json)) :
    render (object members) = assemble (members.map fun (name, value) => (name, value.render)) := by
  rw [← String.toList_inj, toList_assemble, writtenChars_map_render, render, String.toList_ofList]
  rfl

/-- A member with the value that its text is read as. -/
def readMember (form : Form) (member : String × String) : String × Json :=
  (member.1, (read? (form.ofMember member.1) member.2).getD null)

theorem skip_writtenChars (member : String × String) (members : List (String × String))
    (tail : List Char) :
    skip (writtenChars (member :: members) ++ tail) = writtenChars (member :: members) ++ tail := by
  cases members <;> rfl

/-- The text of a member is read wherever it stands in its object. -/
theorem value?_of_read? {form : Form} {text : String} {json : Json}
    (h : read? form text = some json) {tail : List Char} (htail : Closes tail) {fuel : Nat}
    (hfuel : text.toList.length < fuel) :
    ∃ after, value? fuel form (skip (text.toList ++ tail)) = some (json, after) ∧
      skip after = tail := by
  obtain ⟨rest, hvalue, hend⟩ := read?_eq_some_iff.mp h
  refine ⟨rest ++ tail, ?_, ?_⟩
  · rw [htail.skip_append]
    exact (inFront _).1 htail hvalue hfuel
  · rw [htail.skip_append, hend, List.nil_append]

theorem members?_writtenChars {form : Form} (members : List (String × String)) (hne : members ≠ [])
    (h : ∀ member ∈ members, (read? (form.ofMember member.1) member.2).isSome) {fuel : Nat}
    (hfuel : (writtenChars members).length + 1 < fuel) :
    members? fuel form (writtenChars members ++ ['\x7d']) =
      some (some (members.map (readMember form)), []) := by
  induction members generalizing fuel with
  | nil => exact absurd rfl hne
  | cons member members ih =>
    obtain ⟨name, text⟩ := member
    obtain ⟨fuel, rfl⟩ : ∃ least, fuel = least + 1 := ⟨fuel - 1, by omega⟩
    obtain ⟨value, hread⟩ : ∃ value, read? (form.ofMember name) text = some value :=
      Option.isSome_iff_exists.mp (h (name, text) List.mem_cons_self)
    have hmember : readMember form (name, text) = (name, value) := by
      simp [readMember, hread]
    cases members with
    | nil =>
      obtain ⟨after, hvalue, hafter⟩ := value?_of_read? hread (.brace [])
        (show _ < fuel by simp [writtenChars] at hfuel; omega)
      rw [writtenChars, List.append_assoc, List.cons_append]
      simp only [List.map_cons, List.map_nil, hmember]
      exact members?_of_brace hvalue hafter
    | cons second members =>
      obtain ⟨after, hvalue, hafter⟩ := value?_of_read? hread
        (.comma (writtenChars (second :: members) ++ ['\x7d']))
        (show _ < fuel by simp [writtenChars] at hfuel; omega)
      have hrest := ih (by simp) (fun member hmem => h member (List.mem_cons_of_mem _ hmem))
        (show _ < fuel by simp [writtenChars] at hfuel ⊢; omega)
      rw [← skip_writtenChars] at hrest
      rw [List.map_cons, hmember]
      simp only [writtenChars, List.append_assoc, List.cons_append]
      exact members?_of_comma hvalue hafter hrest

/-- An object of members that are each read on their own is read as the list of all of them. -/
theorem read?_assemble {form : Form} {members : List (String × String)}
    (h : ∀ member ∈ members, (read? (form.ofMember member.1) member.2).isSome) :
    read? form (assemble members) = some (object (members.map (readMember form))) := by
  refine read?_eq_some_iff.mpr ⟨[], ?_, rfl⟩
  rw [toList_assemble]
  cases members with
  | nil => rfl
  | cons member members =>
    have hread := members?_writtenChars (member :: members) (by simp) h
      (show _ < (writtenChars (member :: members) ++ ['\x7d']).length + 1 by simp)
    have hskip : skip ('\x7b' :: (writtenChars (member :: members) ++ ['\x7d'])) =
        '\x7b' :: (writtenChars (member :: members) ++ ['\x7d']) := rfl
    rw [hskip, List.length_cons, value?_object, skip_writtenChars]
    split
    · next heq => cases members <;> cases heq
    · rw [hread]
      rfl

end Json

end LogRelay
