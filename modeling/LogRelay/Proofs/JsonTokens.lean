import LogRelay.Json.Reader
import Mathlib.Data.List.TakeDrop
import Mathlib.Data.List.TakeWhile

/-!
# Tokens of JSON in front of a text

A reader takes what stands in front of a text and hands on the rest.  Within a list or an
object a value is followed by a comma or by a closing bracket or brace (`Closes`), and no
reader looks beyond it: what is read from the whole of a text is read in front of such a
tail as well, with the same result and the tail behind the rest.  Here this is shown for
blanks, words, numbers and texts.
-/

namespace LogRelay

namespace Json

/-- A tail that ends an item of a list or a member of an object. -/
inductive Closes : List Char → Prop
  | comma (rest : List Char) : Closes (',' :: rest)
  | bracket (rest : List Char) : Closes (']' :: rest)
  | brace (rest : List Char) : Closes ('\x7d' :: rest)

section

variable {text rest tail : List Char}

/-! ## Blanks, digits and words -/

theorem Closes.skip_append (h : Closes tail) (text : List Char) :
    skip (text ++ tail) = skip text ++ tail := by
  induction text with
  | nil => cases h <;> rfl
  | cons first text ih =>
    simp only [skip, List.cons_append, List.dropWhile_cons] at ih ⊢
    split
    · exact ih
    · rfl

theorem Closes.spanDigits_append (h : Closes tail) (text : List Char) :
    Decimal.spanDigits (text ++ tail) =
      ((Decimal.spanDigits text).1, (Decimal.spanDigits text).2 ++ tail) := by
  simp only [Decimal.spanDigits, List.span_eq_takeWhile_dropWhile]
  induction text with
  | nil => cases h <;> rfl
  | cons first text ih =>
    simp only [Prod.mk.injEq, List.cons_append, List.takeWhile_cons, List.dropWhile_cons] at ih ⊢
    split
    · exact ⟨by rw [ih.1], ih.2⟩
    · exact ⟨rfl, rfl⟩

theorem word?_append {word : String} (h : word? word text = some rest) (tail : List Char) :
    word? word (text ++ tail) = some (rest ++ tail) := by
  unfold word? at h ⊢
  split at h
  · next hword =>
    have hword : word.toList <+: text := List.isPrefixOf_iff_prefix.mp hword
    have hlength : word.length ≤ text.length := by
      rw [← String.length_toList]
      exact hword.length_le
    cases h
    rw [if_pos (List.isPrefixOf_iff_prefix.mpr (hword.trans (List.prefix_append ..))),
      List.drop_append_of_le_length hlength]
  · cases h

/-! ## Numbers -/

namespace Number

theorem fraction?_of_ne {c : Char} (h : c ≠ '.') (text : List Char) :
    fraction? (c :: text) = some (none, c :: text) := by
  simp [fraction?, h]

theorem read?_of_ne {c : Char} (h : c ≠ '-') (text : List Char) :
    read? (c :: text) = unsigned? false (c :: text) := by
  simp [read?, h]

theorem fraction?_append {digits : Option (List Char)} (htail : Closes tail)
    (h : fraction? text = some (digits, rest)) :
    fraction? (text ++ tail) = some (digits, rest ++ tail) := by
  cases text with
  | nil =>
    cases h
    cases htail <;> rfl
  | cons c text =>
    by_cases hpoint : c = '.'
    · subst hpoint
      simp only [fraction?, List.cons_append, htail.spanDigits_append] at h ⊢
      split at h
      · cases h
      · next hdigits =>
        cases h
        rw [if_neg hdigits]
    · rw [fraction?_of_ne hpoint] at h
      cases h
      exact fraction?_of_ne hpoint _

theorem exponentDigits?_append {sign exponent : Int} (htail : Closes tail)
    (h : exponentDigits? sign text = some (exponent, rest)) :
    exponentDigits? sign (text ++ tail) = some (exponent, rest ++ tail) := by
  simp only [exponentDigits?, htail.spanDigits_append] at h ⊢
  split at h
  · cases h
  · next hdigits =>
    cases h
    rw [if_neg hdigits]

theorem exponent?_of_ne {c : Char} (hplus : c ≠ '+') (hminus : c ≠ '-') (text : List Char) :
    exponent? (c :: text) = exponentDigits? 1 (c :: text) := by
  simp [exponent?, hplus, hminus]

theorem exponent?_append {exponent : Int} (htail : Closes tail)
    (h : exponent? text = some (exponent, rest)) :
    exponent? (text ++ tail) = some (exponent, rest ++ tail) := by
  cases text with
  | nil => cases h
  | cons c text =>
    by_cases hplus : c = '+'
    · subst hplus
      exact exponentDigits?_append htail h
    by_cases hminus : c = '-'
    · subst hminus
      exact exponentDigits?_append htail h
    · rw [exponent?_of_ne hplus hminus] at h
      rw [List.cons_append, exponent?_of_ne hplus hminus]
      exact exponentDigits?_append htail h

theorem exponentPart?_append {exponent : Option Int} (htail : Closes tail)
    (h : exponentPart? text = some (exponent, rest)) :
    exponentPart? (text ++ tail) = some (exponent, rest ++ tail) := by
  cases text with
  | nil =>
    cases h
    cases htail <;> rfl
  | cons c text =>
    simp only [exponentPart?, List.cons_append] at h ⊢
    split at h
    · next hletter =>
      obtain ⟨⟨value, after⟩, hvalue, h⟩ := Option.map_eq_some_iff.mp h
      cases h
      rw [if_pos hletter, exponent?_append htail hvalue]
      rfl
    · next hletter =>
      cases h
      rw [if_neg hletter, List.cons_append]

theorem unsigned?_append {negative : Bool} {number : Number} (htail : Closes tail)
    (h : unsigned? negative text = some (number, rest)) :
    unsigned? negative (text ++ tail) = some (number, rest ++ tail) := by
  simp only [unsigned?, htail.spanDigits_append] at h ⊢
  split at h
  · cases h
  · next hwhole =>
    rw [if_neg hwhole]
    simp only [Option.bind_eq_bind, Option.bind_eq_some_iff, Prod.exists] at h
    obtain ⟨fraction, after, hfraction, exponent, last, hexponent, h⟩ := h
    cases h
    simp [fraction?_append htail hfraction, exponentPart?_append htail hexponent]

theorem read?_append {number : Number} (htail : Closes tail)
    (h : read? text = some (number, rest)) :
    read? (text ++ tail) = some (number, rest ++ tail) := by
  cases text with
  | nil => cases h
  | cons c text =>
    by_cases hsign : c = '-'
    · subst hsign
      exact unsigned?_append htail h
    · rw [read?_of_ne hsign] at h
      rw [List.cons_append, read?_of_ne hsign]
      exact unsigned?_append htail h

end Number

/-! ## Texts -/

theorem unit?_append {unit : Nat} (h : unit? text = some (unit, rest)) (tail : List Char) :
    unit? (text ++ tail) = some (unit, rest ++ tail) := by
  unfold unit? at h
  split at h
  · simp only [Option.bind_eq_bind, Option.bind_eq_some_iff] at h
    obtain ⟨a, ha, b, hb, c, hc, d, hd, h⟩ := h
    cases h
    simp [unit?, ha, hb, hc, hd]
  · cases h

/-- A tail brings no escape about that was not there before it. -/
theorem Closes.append_ne_unicode (htail : Closes tail)
    (h : ∀ more, text = '\\' :: 'u' :: more → False) (more : List Char) :
    text ++ tail ≠ '\\' :: 'u' :: more := by
  intro heq
  match text with
  | [] => cases htail <;> cases heq
  | [_] => cases htail <;> simp at heq
  | first :: second :: text =>
    simp only [List.cons_append, List.cons.injEq] at heq
    exact h text (by rw [heq.1, heq.2.1])

theorem unicode?_append {c : Option Char} (htail : Closes tail)
    (h : unicode? text = some (c, rest)) :
    unicode? (text ++ tail) = some (c, rest ++ tail) := by
  simp only [unicode?, Option.bind_eq_bind, Option.bind_eq_some_iff, Prod.exists] at h ⊢
  obtain ⟨unit, after, hunit, h⟩ := h
  refine ⟨unit, after ++ tail, unit?_append hunit tail, ?_⟩
  split at h
  · next hhigh =>
    rw [if_pos hhigh]
    split at h
    · simp only [Option.bind_eq_some_iff, Prod.exists] at h
      obtain ⟨low, last, hlow, h⟩ := h
      simp only [List.cons_append, unit?_append hlow tail, Option.bind_some]
      split at h <;> cases h <;> simp_all
    · next hnone =>
      cases h
      split
      · next heq => exact absurd heq (htail.append_ne_unicode hnone _)
      · rfl
  · next hhigh =>
    rw [if_neg hhigh]
    split at h <;> cases h <;> simp_all

theorem escape?_append {c : Option Char} (htail : Closes tail)
    (h : escape? text = some (c, rest)) :
    escape? (text ++ tail) = some (c, rest ++ tail) := by
  unfold escape? at h
  split at h
  case h_9 => exact unicode?_append htail h
  case h_10 => cases h
  all_goals cases h; rfl

theorem characters?_of_ne {c : Char} (hquote : c ≠ '"') (hescape : c ≠ '\\') (fuel : Nat)
    (text : List Char) :
    characters? (fuel + 1) (c :: text) =
      if c.toNat < 0x20 then none
      else (characters? fuel text).map fun (following, rest) => (following.map (c :: ·), rest) := by
  simp only [characters?, Option.map_eq_bind]
  rfl

theorem characters?_append {fuel : Nat} {characters : Option (List Char)} (htail : Closes tail)
    (h : characters? fuel text = some (characters, rest)) {more : Nat} (hfuel : fuel ≤ more) :
    characters? more (text ++ tail) = some (characters, rest ++ tail) := by
  induction fuel generalizing text characters rest more with
  | zero => cases h
  | succ fuel ih =>
    obtain ⟨more, rfl⟩ : ∃ least, more = least + 1 := ⟨more - 1, by omega⟩
    have hfuel : fuel ≤ more := by omega
    cases text with
    | nil => cases h
    | cons c text =>
      rw [List.cons_append]
      by_cases hquote : c = '"'
      · subst hquote
        cases h
        rfl
      by_cases hescape : c = '\\'
      · subst hescape
        simp only [characters?, Option.bind_eq_bind, Option.bind_eq_some_iff, Prod.exists] at h ⊢
        obtain ⟨first, after, hfirst, following, last, hfollowing, h⟩ := h
        cases h
        exact ⟨first, after ++ tail, escape?_append htail hfirst, following, rest ++ tail,
          ih hfollowing hfuel, rfl⟩
      · rw [characters?_of_ne hquote hescape] at h ⊢
        split at h
        · cases h
        · next hcontrol =>
          obtain ⟨⟨following, last⟩, hfollowing, h⟩ := Option.map_eq_some_iff.mp h
          cases h
          rw [if_neg hcontrol, ih hfollowing hfuel]
          rfl

theorem string?_append {value : Option String} (htail : Closes tail)
    (h : string? text = some (value, rest)) :
    string? (text ++ tail) = some (value, rest ++ tail) := by
  unfold string? at h
  split at h
  · next text =>
    simp only [Option.bind_eq_bind, Option.bind_eq_some_iff, Prod.exists] at h
    obtain ⟨characters, last, hcharacters, h⟩ := h
    cases h
    have hfuel : text.length + 1 ≤ (text ++ tail).length + 1 := by simp
    have happend := characters?_append htail hcharacters hfuel
    simp only [string?, List.cons_append, happend]
    rfl
  · cases h

end

end Json

end LogRelay
