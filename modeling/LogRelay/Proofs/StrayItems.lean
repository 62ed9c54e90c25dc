import LogRelay.Proofs.JsonTokens

/-!
# Items that are no bytes in front of a text

The item that is passed over behind a list of bytes is looked at until it cannot be a
value any more.  This too stays in front of what ends a member: where the item is cut off
by bytes instead of characters, the bytes that are passed over are all there
(`le_length_of_afterBytes?`), so nothing behind them decides.
-/

namespace LogRelay

namespace Json

section

variable {text rest tail : List Char}

theorem afterByte?_append (h : afterByte? text = some rest) (tail : List Char) :
    afterByte? (text ++ tail) = some (rest ++ tail) := by
  cases text with
  | nil => cases h
  | cons c text =>
    simp only [afterByte?, List.cons_append] at h ⊢
    split at h
    · next hsize =>
      cases h
      rw [if_pos hsize]
    · cases h

theorem afterBytes?_append {count : Nat} (h : afterBytes? count text = some rest)
    (tail : List Char) : afterBytes? count (text ++ tail) = some (rest ++ tail) := by
  induction text generalizing count with
  | nil =>
    cases count with
    | zero => simp_all [afterBytes?]
    | succ count => simp [afterBytes?] at h
  | cons c text ih =>
    cases count with
    | zero => simp_all [afterBytes?]
    | succ count =>
      rw [List.cons_append]
      simp only [afterBytes?] at h ⊢
      split at h
      · next hsize =>
        rw [if_pos hsize]
        exact ih h
      · cases h

theorem afterWord?_append {word : List Char} (h : afterWord? word text = some rest)
    (tail : List Char) : afterWord? word (text ++ tail) = some (rest ++ tail) := by
  induction word generalizing text with
  | nil => simp_all [afterWord?]
  | cons c word ih =>
    cases text with
    | nil => cases h
    | cons first text =>
      simp only [afterWord?, List.cons_append] at h ⊢
      split at h
      · next hfirst =>
        rw [if_pos hfirst]
        exact ih h
      · next hfirst =>
        rw [if_neg hfirst]
        exact afterByte?_append h tail

/-- Characters of one byte are passed over one by one. -/
theorem le_length_of_afterBytes? {count : Nat} (h : afterBytes? count text = some rest)
    (hsize : ∀ c ∈ text, c.utf8Size = 1) : count ≤ text.length := by
  induction text generalizing count with
  | nil =>
    cases count with
    | zero => exact le_rfl
    | succ count => simp [afterBytes?] at h
  | cons c text ih =>
    cases count with
    | zero => exact Nat.zero_le _
    | succ count =>
      have hc : c.utf8Size = 1 := hsize c List.mem_cons_self
      simp only [afterBytes?, hc, Nat.add_sub_cancel] at h
      split at h
      · exact Nat.succ_le_succ (ih h fun c hmem => hsize c (List.mem_cons_of_mem _ hmem))
      · cases h

theorem utf8Size_of_digitValue? {c : Char} {value : Nat} (h : Hex.digitValue? c = some value) :
    c.utf8Size = 1 := by
  have hle (bound : Char) (hbound : bound.val ≤ 127) (h : c ≤ bound) : c.utf8Size = 1 :=
    Char.utf8Size_eq_one_iff.mpr (UInt32.le_trans h hbound)
  unfold Hex.digitValue? at h
  split at h
  · next hc => exact hle '9' (by decide) hc.2
  · split at h
    · next hc => exact hle 'f' (by decide) hc.2
    · split at h
      · next hc => exact hle 'F' (by decide) hc.2
      · cases h

theorem exists_of_unit? {unit : Nat} (h : unit? text = some (unit, rest)) :
    ∃ a b c d, text = a :: b :: c :: d :: rest ∧
      ∀ digit ∈ [a, b, c, d], digit.utf8Size = 1 := by
  unfold unit? at h
  split at h
  · simp only [Option.bind_eq_bind, Option.bind_eq_some_iff] at h
    obtain ⟨_, ha, _, hb, _, hc, _, hd, h⟩ := h
    cases h
    exact ⟨_, _, _, _, rfl, by simp [utf8Size_of_digitValue? ha, utf8Size_of_digitValue? hb,
      utf8Size_of_digitValue? hc, utf8Size_of_digitValue? hd]⟩
  · cases h

theorem unit?_append_eq_none_of_four {a b c d : Char}
    (h : unit? (a :: b :: c :: d :: text) = none) (tail : List Char) :
    unit? (a :: b :: c :: d :: text ++ tail) = none := by
  simpa [unit?] using h

/-- Four bytes that are passed over in place of the digits of an escape are no digits, whatever
follows them. -/
theorem unit?_append_eq_none (h : unit? text = none) (hbytes : afterBytes? 4 text = some rest)
    (tail : List Char) : unit? (text ++ tail) = none := by
  by_contra hsome
  obtain ⟨⟨unit, after⟩, hunit⟩ := Option.ne_none_iff_exists'.mp hsome
  obtain ⟨a, b, c, d, htext, hsize⟩ := exists_of_unit? hunit
  rcases Nat.lt_or_ge text.length 4 with hshort | hlong
  · -- all characters of the text would be digits, hence of one byte each
    have hfour : text <+: [a, b, c, d] :=
      List.prefix_of_prefix_length_le (List.prefix_append text tail) ⟨after, htext.symm⟩ hshort.le
    have hlength := le_length_of_afterBytes? hbytes fun c hmem => hsize c (hfour.subset hmem)
    omega
  · have hfour : [a, b, c, d] <+: text :=
      List.prefix_of_prefix_length_le ⟨after, htext.symm⟩ (List.prefix_append text tail) hlong
    obtain ⟨more, rfl⟩ := hfour
    exact hsome (unit?_append_eq_none_of_four h tail)

section

variable {proper : Bool}

theorem map_afterByte?_append
    (h : (afterByte? text).map (fun rest => (false, rest)) = some (proper, rest))
    (tail : List Char) :
    (afterByte? (text ++ tail)).map (fun rest => (false, rest)) = some (proper, rest ++ tail) := by
  obtain ⟨after, hafter, h⟩ := Option.map_eq_some_iff.mp h
  cases h
  rw [afterByte?_append hafter]
  rfl

theorem map_afterBytes?_append
    (h : (afterBytes? 4 text).map (fun rest => (false, rest)) = some (proper, rest))
    (tail : List Char) :
    (afterBytes? 4 (text ++ tail)).map (fun rest => (false, rest)) =
      some (proper, rest ++ tail) := by
  obtain ⟨after, hafter, h⟩ := Option.map_eq_some_iff.mp h
  cases h
  rw [afterBytes?_append hafter]
  rfl

theorem afterLowHalf?_append (h : afterLowHalf? text = some (proper, rest)) (tail : List Char) :
    afterLowHalf? (text ++ tail) = some (proper, rest ++ tail) := by
  unfold afterLowHalf? at h
  split at h
  · simp only [afterLowHalf?, List.cons_append]
    split at h
    · next hnone =>
      obtain ⟨after, hafter, -⟩ := Option.map_eq_some_iff.mp h
      rw [unit?_append_eq_none hnone hafter]
      exact map_afterBytes?_append h tail
    · next hunit =>
      cases h
      rw [unit?_append hunit tail]
  · next text hnone =>
    cases text with
    | nil => cases h
    | cons c text =>
      have hc : c ≠ 'u' := fun heq => hnone text (by rw [heq])
      simp only [List.cons_append]
      rw [← map_afterByte?_append h tail]
      simp [afterLowHalf?, hc]
  · next hpair hlone =>
    cases text with
    | nil => cases h
    | cons c text =>
      have hc : c ≠ '\\' := fun heq => hlone text (by rw [heq])
      rw [← map_afterByte?_append h tail]
      simp [afterLowHalf?, hc]

theorem afterEscape?_append (h : afterEscape? text = some (proper, rest)) (tail : List Char) :
    afterEscape? (text ++ tail) = some (proper, rest ++ tail) := by
  unfold afterEscape? at h
  split at h
  · simp only [afterEscape?, List.cons_append]
    split at h
    · next hnone =>
      obtain ⟨after, hafter, -⟩ := Option.map_eq_some_iff.mp h
      rw [unit?_append_eq_none hnone hafter]
      exact map_afterBytes?_append h tail
    · next hunit =>
      simp only [unit?_append hunit tail]
      split at h
      · next hhigh =>
        rw [if_pos hhigh]
        exact afterLowHalf?_append h tail
      · next hhigh =>
        cases h
        rw [if_neg hhigh]
  · next c text hc =>
    have hletter (text : List Char) : afterEscape? (c :: text) =
        if "\"\\/bfnrt".toList.contains c then some (true, text)
        else (afterByte? (c :: text)).map fun rest => (false, rest) := by
      simp [afterEscape?]
    rw [List.cons_append, hletter]
    split at h
    · next hplain =>
      cases h
      rw [if_pos hplain]
    · next hplain =>
      rw [if_neg hplain]
      exact map_afterByte?_append h tail
  · cases h

end

theorem afterText?_append {fuel : Nat} (h : afterText? fuel text = some rest) {more : Nat}
    (hfuel : fuel ≤ more) (tail : List Char) :
    afterText? more (text ++ tail) = some (rest ++ tail) := by
  induction fuel generalizing text more with
  | zero => cases h
  | succ fuel ih =>
    obtain ⟨more, rfl⟩ : ∃ least, more = least + 1 := ⟨more - 1, by omega⟩
    have hfuel : fuel ≤ more := by omega
    cases text with
    | nil => cases h
    | cons c text =>
      rw [List.cons_append]
      by_cases hquote : c = '"'
      · subst hquote
        simp_all [afterText?]
      by_cases hescape : c = '\\'
      · subst hescape
        simp only [afterText?] at h ⊢
        split at h
        · next hproper =>
          rw [afterEscape?_append hproper tail]
          exact ih h hfuel
        · next hproper =>
          cases h
          rw [afterEscape?_append hproper tail]
        · cases h
      · simp only [afterText?] at h ⊢
        split at h
        · next hcontrol =>
          cases h
          rw [if_pos hcontrol]
        · next hcontrol =>
          rw [if_neg hcontrol]
          exact ih h hfuel

theorem Closes.afterExponentDigits_append (htail : Closes tail) (exponent : Nat)
    (text : List Char) :
    afterExponentDigits exponent (text ++ tail) = afterExponentDigits exponent text ++ tail := by
  induction text generalizing exponent with
  | nil => cases htail <;> rfl
  | cons c text ih =>
    simp only [afterExponentDigits, List.cons_append]
    split
    · split
      · rfl
      · exact ih _
    · rfl

theorem Closes.dropWhile_append (htail : Closes tail) (text : List Char) :
    (text ++ tail).dropWhile Char.isDigit = text.dropWhile Char.isDigit ++ tail := by
  have hspan := congrArg Prod.snd (htail.spanDigits_append text)
  simpa only [Decimal.spanDigits, List.span_eq_takeWhile_dropWhile] using hspan

theorem afterSign_append {c : Char} :
    afterSign (c :: text ++ tail) = afterSign (c :: text) ++ tail := by
  by_cases hplus : c = '+'
  · subst hplus
    rfl
  by_cases hminus : c = '-'
  · subst hminus
    rfl
  simp [afterSign, hplus, hminus]

theorem afterUnsigned?_append {ofAnySize : Bool} (htail : Closes tail)
    (h : afterUnsigned? ofAnySize text = some rest) :
    afterUnsigned? ofAnySize (text ++ tail) = some (rest ++ tail) := by
  cases text with
  | nil => cases h
  | cons c text =>
    simp only [afterUnsigned?, List.cons_append] at h ⊢
    split at h
    · next hdigit =>
      cases h
      rw [if_pos hdigit, ← List.cons_append, htail.afterExponentDigits_append,
        htail.dropWhile_append]
      split <;> rfl
    · next hdigit =>
      rw [if_neg hdigit, ← List.cons_append]
      exact afterByte?_append h tail

theorem afterExponent?_of_ne {c : Char} (hlower : c ≠ 'e') (hupper : c ≠ 'E')
    (digits text : List Char) : afterExponent? digits (c :: text) = some (c :: text) := by
  simp [afterExponent?, hlower, hupper]

theorem afterExponent?_append {digits : List Char} (htail : Closes tail)
    (h : afterExponent? digits text = some rest) :
    afterExponent? digits (text ++ tail) = some (rest ++ tail) := by
  have hscale {text : List Char}
      (h : afterUnsigned? (digits.all (· == '0') || text.head? == some '-') (afterSign text) =
        some rest) :
      afterUnsigned? (digits.all (· == '0') || (text ++ tail).head? == some '-')
        (afterSign (text ++ tail)) = some (rest ++ tail) := by
    cases text with
    | nil => cases h
    | cons c text =>
      rw [afterSign_append]
      exact afterUnsigned?_append htail h
  cases text with
  | nil =>
    cases h
    cases htail <;> rfl
  | cons c text =>
    rw [List.cons_append]
    by_cases hlower : c = 'e'
    · subst hlower
      exact hscale h
    by_cases hupper : c = 'E'
    · subst hupper
      exact hscale h
    rw [afterExponent?_of_ne hlower hupper] at h ⊢
    cases h
    rfl

theorem afterWhole?_of_ne {c : Char} (hpoint : c ≠ '.') (hlower : c ≠ 'e') (hupper : c ≠ 'E')
    (negative : Bool) (whole text : List Char) :
    afterWhole? negative whole (c :: text) =
      if !negative && Decimal.ofDigits whole < 256 then none else some (c :: text) := by
  simp [afterWhole?, hpoint, hlower, hupper]

theorem afterWhole?_append {negative : Bool} {whole : List Char} (htail : Closes tail)
    (h : afterWhole? negative whole text = some rest) :
    afterWhole? negative whole (text ++ tail) = some (rest ++ tail) := by
  cases text with
  | nil => cases htail <;> simp_all [afterWhole?]
  | cons c text =>
    rw [List.cons_append]
    by_cases hpoint : c = '.'
    · subst hpoint
      simp only [afterWhole?, htail.spanDigits_append] at h ⊢
      split at h
      · next hfraction =>
        cases h
        rw [if_pos hfraction]
      · next hfraction =>
        rw [if_neg hfraction]
        exact afterExponent?_append htail h
    by_cases hletter : c = 'e' ∨ c = 'E'
    · have hexponent (text : List Char) :
          afterWhole? negative whole (c :: text) = afterExponent? whole (c :: text) := by
        rcases hletter with rfl | rfl <;> rfl
      rw [hexponent] at h ⊢
      exact afterExponent?_append htail h
    · obtain ⟨hlower, hupper⟩ := not_or.mp hletter
      rw [afterWhole?_of_ne hpoint hlower hupper] at h ⊢
      split at h
      · cases h
      · next hbyte =>
        cases h
        rw [if_neg hbyte, List.cons_append]

theorem afterNumber?_append {negative : Bool} (htail : Closes tail)
    (h : afterNumber? negative text = some rest) :
    afterNumber? negative (text ++ tail) = some (rest ++ tail) := by
  simp only [afterNumber?, htail.spanDigits_append] at h ⊢
  split at h
  · exact afterByte?_append h tail
  · cases h
  · exact afterWhole?_append htail h

theorem afterStray?_of_isDigit {c : Char} (h : c.isDigit) (text : List Char) :
    afterStray? (c :: text) = afterNumber? false (c :: text) := by
  unfold afterStray?
  split <;> simp_all

theorem afterStray?_append (htail : Closes tail) (h : afterStray? text = some rest) :
    afterStray? (text ++ tail) = some (rest ++ tail) := by
  unfold afterStray? at h
  split at h
  case h_1 | h_2 | h_3 => exact afterWord?_append h tail
  case h_4 text => exact afterText?_append h (by simp) tail
  case h_5 => exact afterNumber?_append htail h
  case h_6 c text _ _ _ _ _ =>
    split at h
    · next hdigit =>
      rw [List.cons_append, afterStray?_of_isDigit hdigit]
      exact afterNumber?_append htail h
    · cases h
  case h_7 => cases h

end

end Json

end LogRelay
