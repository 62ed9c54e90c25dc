import LogRelay.Proofs.StrayItems

/-!
# Values of JSON in front of a text

A value is read in front of a tail that ends a member as it is read on its own, whatever
it is expected to hold and with any amount of fuel that is no smaller (`inFront`).  One
step for each of the mutual readers carries this from one amount of fuel to the next.
-/

namespace LogRelay

namespace Json

section

variable {text rest tail : List Char}

/-! ## Lists of bytes -/

theorem afterComma?_append (h : afterComma? text = some rest) (tail : List Char) :
    afterComma? (text ++ tail) = some (rest ++ tail) := by
  unfold afterComma? at h
  split at h <;> cases h
  rfl

theorem afterBracket?_append (h : afterBracket? text = some rest) (tail : List Char) :
    afterBracket? (text ++ tail) = some (rest ++ tail) := by
  unfold afterBracket? at h
  split at h <;> cases h
  rfl

theorem bytes?_append {count : Nat} {bytes : List Json} (htail : Closes tail)
    (h : bytes? count text = some (bytes, rest)) :
    bytes? count (text ++ tail) = some (bytes, rest ++ tail) := by
  induction count generalizing text bytes with
  | zero =>
    cases h
    rfl
  | succ count ih =>
    simp only [bytes?, htail.skip_append, Option.bind_eq_bind, Option.bind_eq_some_iff,
      Prod.exists] at h ⊢
    obtain ⟨value, after, hvalue, byte, hbyte, h⟩ := h
    refine ⟨value, after ++ tail, Number.read?_append htail hvalue, byte, hbyte, ?_⟩
    rw [htail.skip_append]
    split at h
    · next hlast =>
      cases h
      rw [if_pos hlast]
      rfl
    · next hlast =>
      simp only [Option.bind_eq_some_iff, Prod.exists] at h
      obtain ⟨more, hcomma, following, last, hfollowing, h⟩ := h
      cases h
      simp [hlast, afterComma?_append hcomma, ih hfollowing]

theorem endOfBytes?_append (htail : Closes tail) (h : endOfBytes? text = some rest) :
    endOfBytes? (text ++ tail) = some (rest ++ tail) := by
  have hbracket {text : List Char} (h : afterBracket? (skip text) = some rest) :
      afterBracket? (skip (text ++ tail)) = some (rest ++ tail) := by
    rw [htail.skip_append]
    exact afterBracket?_append h tail
  simp only [endOfBytes?, htail.skip_append] at h ⊢
  split at h
  · next hskip =>
    cases h
    rw [hskip]
    rfl
  · next after hskip =>
    rw [hskip]
    simp only [List.cons_append, htail.skip_append] at h ⊢
    cases hafter : skip after with
    | nil =>
      rw [hafter] at h
      cases h
    | cons c more =>
      rw [hafter] at h
      -- the stray item starts where the list does not end
      by_cases hc : c = ']'
      · have hhead (rest : List Char) : (c :: rest).head? = some ']' := congrArg some hc
        rw [if_pos (hhead _)] at h
        rw [List.cons_append, if_pos (hhead _)]
        exact hbracket h
      · have hhead (rest : List Char) : (c :: rest).head? ≠ some ']' := by simpa using hc
        rw [if_neg (hhead _)] at h
        rw [List.cons_append, if_neg (hhead _)]
        obtain ⟨last, hlast, h⟩ := Option.bind_eq_some_iff.mp h
        rw [← List.cons_append, afterStray?_append htail hlast]
        exact hbracket h
  · cases h

/-! ## Values -/

theorem asWritten_append (text rest tail : List Char) :
    asWritten (text ++ tail) (rest ++ tail) = asWritten text rest := by
  simp only [asWritten, List.length_append, Nat.add_sub_add_right,
    List.take_append_of_le_length (Nat.sub_le ..)]

end

/-- With so much fuel, a value is read in front of a tail as it is read on its own. -/
def ValuesInFront (fuel : Nat) : Prop :=
  ∀ {form : Form} {text rest tail : List Char} {json : Json} {more : Nat}, Closes tail →
    value? fuel form text = some (json, rest) → fuel ≤ more →
    value? more form (text ++ tail) = some (json, rest ++ tail)

/-- With so much fuel, the items of a list are read in front of a tail as on their own. -/
def ItemsInFront (fuel : Nat) : Prop :=
  ∀ {form : Form} {place : Nat} {text rest tail : List Char} {items : List Json} {more : Nat},
    Closes tail → items? fuel form place text = some (items, rest) → fuel ≤ more →
    items? more form place (text ++ tail) = some (items, rest ++ tail)

/-- With so much fuel, the members of an object are read in front of a tail as on their own. -/
def MembersInFront (fuel : Nat) : Prop :=
  ∀ {form : Form} {text rest tail : List Char} {members : Option (List (String × Json))}
    {more : Nat}, Closes tail → members? fuel form text = some (members, rest) → fuel ≤ more →
    members? more form (text ++ tail) = some (members, rest ++ tail)

variable {fuel : Nat}

theorem itemsInFront_succ (hvalues : ValuesInFront fuel) (hitems : ItemsInFront fuel) :
    ItemsInFront (fuel + 1) := by
  intro form place text rest tail items more htail h hfuel
  obtain ⟨more, rfl⟩ : ∃ least, more = least + 1 := ⟨more - 1, by omega⟩
  have hfuel : fuel ≤ more := by omega
  simp only [items?, Option.bind_eq_bind, Option.bind_eq_some_iff, Prod.exists] at h ⊢
  obtain ⟨item, after, hitem, h⟩ := h
  refine ⟨item, after ++ tail, hvalues htail hitem hfuel, ?_⟩
  rw [htail.skip_append]
  split at h
  · next hcomma =>
    simp only [Option.bind_eq_some_iff, Prod.exists] at h
    obtain ⟨following, last, hfollowing, h⟩ := h
    cases h
    simp [hcomma, htail.skip_append, hitems htail hfollowing hfuel]
  · next hend =>
    cases h
    rw [hend]
    rfl
  · cases h

theorem membersInFront_succ (hvalues : ValuesInFront fuel) (hmembers : MembersInFront fuel) :
    MembersInFront (fuel + 1) := by
  intro form text rest tail members more htail h hfuel
  obtain ⟨more, rfl⟩ : ∃ least, more = least + 1 := ⟨more - 1, by omega⟩
  have hfuel : fuel ≤ more := by omega
  simp only [members?, Option.bind_eq_bind, Option.bind_eq_some_iff, Prod.exists] at h ⊢
  obtain ⟨name, after, hname, h⟩ := h
  refine ⟨name, after ++ tail, string?_append htail hname, ?_⟩
  rw [htail.skip_append]
  split at h
  · next hcolon =>
    simp only [hcolon, List.cons_append, htail.skip_append, Option.bind_eq_some_iff,
      Prod.exists] at h ⊢
    obtain ⟨value, after, hvalue, h⟩ := h
    refine ⟨value, after ++ tail, hvalues htail hvalue hfuel, ?_⟩
    rw [htail.skip_append]
    split at h
    · next hcomma =>
      simp only [Option.bind_eq_some_iff, Prod.exists] at h
      obtain ⟨following, last, hfollowing, h⟩ := h
      cases h
      simp [hcomma, htail.skip_append, hmembers htail hfollowing hfuel]
    · next hend =>
      cases h
      rw [hend]
      rfl
    · cases h
  · cases h

theorem value?_word (fuel size : Nat) (text : List Char) :
    value? (fuel + 1) (.word size) ('[' :: text) =
      (bytes? size (skip text)).bind fun (bytes, rest) =>
        (endOfBytes? rest).map fun rest => (list bytes, rest) := by
  simp only [value?, Option.map_eq_bind]
  rfl

theorem value?_list {form : Form} (hform : ∀ size, form ≠ .word size) (fuel : Nat)
    (text : List Char) :
    value? (fuel + 1) form ('[' :: text) =
      match skip text with
      | ']' :: rest => some (list [], rest)
      | rest => (items? fuel form 0 rest).map fun (items, rest) => (list items, rest) := by
  simp only [value?]
  cases skip text with
  | nil =>
    cases form with
    | word size => exact absurd rfl (hform size)
    | any | list item | record fields => rfl
  | cons c rest =>
    split
    · exact absurd rfl (hform _)
    · next heq =>
      cases heq
      rfl
    · next hend =>
      split
      · next heq => exact absurd heq (hend _)
      · rfl

theorem value?_object (fuel : Nat) (form : Form) (text : List Char) :
    value? (fuel + 1) form ('\x7b' :: text) =
      match skip text with
      | '\x7d' :: rest => some (object [], rest)
      | rest => (members? fuel form rest).map fun (members, rest) =>
          (members.elim (asWritten ('\x7b' :: text) rest) object, rest) := rfl

theorem items?_nil (fuel : Nat) (form : Form) (place : Nat) : items? fuel form place [] = none := by
  match fuel with
  | 0 | 1 | _ + 2 => rfl

theorem members?_nil (fuel : Nat) (form : Form) : members? fuel form [] = none := by
  cases fuel <;> rfl

theorem value?_number {c : Char} (h : c ∉ ['n', 't', 'f', '"', '[', '\x7b']) (fuel : Nat)
    (form : Form) (text : List Char) :
    value? (fuel + 1) form (c :: text) =
      (Number.read? (c :: text)).map fun (value, rest) => (number value, rest) := by
  simp only [List.mem_cons, List.not_mem_nil, or_false, not_or] at h
  obtain ⟨hnull, htrue, hfalse, hquote, hlist, hobject⟩ := h
  simp [value?, hnull, htrue, hfalse, hquote, hlist, hobject]

section

variable {more : Nat} {form : Form} {text rest tail : List Char} {json : Json}

theorem word_inFront {word : String} {value : Json}
    (h : (word? word text).map (fun rest => (value, rest)) = some (json, rest))
    (tail : List Char) :
    (word? word (text ++ tail)).map (fun rest => (value, rest)) = some (json, rest ++ tail) := by
  obtain ⟨after, hafter, h⟩ := Option.map_eq_some_iff.mp h
  cases h
  rw [word?_append hafter]
  rfl

theorem text_inFront (htail : Closes tail)
    (h : value? (fuel + 1) form ('"' :: text) = some (json, rest)) :
    value? (more + 1) form ('"' :: text ++ tail) = some (json, rest ++ tail) := by
  obtain ⟨⟨value, after⟩, hvalue, h⟩ := Option.map_eq_some_iff.mp h
  cases h
  have hstring := string?_append htail hvalue
  have hwritten := asWritten_append ('"' :: text) rest tail
  simp only [List.cons_append] at hstring hwritten ⊢
  simp only [value?, hstring, Option.map_some, hwritten]

theorem list_inFront (hitems : ItemsInFront fuel) (htail : Closes tail)
    (h : value? (fuel + 1) form ('[' :: text) = some (json, rest)) (hfuel : fuel ≤ more) :
    value? (more + 1) form ('[' :: text ++ tail) = some (json, rest ++ tail) := by
  rw [List.cons_append]
  by_cases hform : ∀ size, form ≠ .word size
  case neg =>
    obtain ⟨size, rfl⟩ : ∃ size, form = .word size := by simpa using hform
    rw [value?_word] at h ⊢
    simp only [Option.bind_eq_some_iff, Option.map_eq_some_iff, Prod.exists] at h ⊢
    obtain ⟨bytes, after, hbytes, last, hlast, h⟩ := h
    cases h
    refine ⟨bytes, after ++ tail, ?_, rest ++ tail, endOfBytes?_append htail hlast, rfl⟩
    rw [htail.skip_append]
    exact bytes?_append htail hbytes
  rw [value?_list hform] at h ⊢
  rw [htail.skip_append]
  split at h
  · next hempty =>
    cases h
    rw [hempty]
    rfl
  · next hfilled =>
    obtain ⟨⟨items, after⟩, hread, h⟩ := Option.map_eq_some_iff.mp h
    cases h
    -- the bracket does not come from the tail, because an item was read before it
    cases hskip : skip text with
    | nil =>
      rw [hskip, items?_nil] at hread
      cases hread
    | cons c after =>
      rw [hskip] at hread hfilled
      split
      · next heq => exact (hfilled after (by cases heq; rfl)).elim
      · simp only [hitems htail hread hfuel, Option.map_some]

theorem object_inFront (hmembers : MembersInFront fuel) (htail : Closes tail)
    (h : value? (fuel + 1) form ('\x7b' :: text) = some (json, rest)) (hfuel : fuel ≤ more) :
    value? (more + 1) form ('\x7b' :: text ++ tail) = some (json, rest ++ tail) := by
  have hwritten (rest : List Char) := asWritten_append ('\x7b' :: text) rest tail
  simp only [List.cons_append] at hwritten ⊢
  rw [value?_object] at h ⊢
  rw [htail.skip_append]
  split at h
  · next hempty =>
    cases h
    rw [hempty]
    rfl
  · next hfilled =>
    obtain ⟨⟨members, after⟩, hread, h⟩ := Option.map_eq_some_iff.mp h
    cases h
    cases hskip : skip text with
    | nil =>
      rw [hskip, members?_nil] at hread
      cases hread
    | cons c after =>
      rw [hskip] at hread hfilled
      split
      · next heq => exact (hfilled after (by cases heq; rfl)).elim
      · simp only [hmembers htail hread hfuel, Option.map_some, hwritten]

theorem number_inFront {c : Char} (hc : c ∉ ['n', 't', 'f', '"', '[', '\x7b'])
    (htail : Closes tail) (h : value? (fuel + 1) form (c :: text) = some (json, rest)) :
    value? (more + 1) form (c :: text ++ tail) = some (json, rest ++ tail) := by
  rw [value?_number hc] at h
  rw [List.cons_append, value?_number hc, ← List.cons_append]
  obtain ⟨⟨value, after⟩, hvalue, h⟩ := Option.map_eq_some_iff.mp h
  cases h
  rw [Number.read?_append htail hvalue]
  rfl

end

theorem valuesInFront_succ (hitems : ItemsInFront fuel) (hmembers : MembersInFront fuel) :
    ValuesInFront (fuel + 1) := by
  intro form text rest tail json more htail h hfuel
  obtain ⟨more, rfl⟩ : ∃ least, more = least + 1 := ⟨more - 1, by omega⟩
  have hfuel : fuel ≤ more := by omega
  cases text with
  | nil => cases h
  | cons c text =>
    by_cases hc : c ∈ ['n', 't', 'f', '"', '[', '\x7b']
    · simp only [List.mem_cons, List.not_mem_nil, or_false] at hc
      rcases hc with rfl | rfl | rfl | rfl | rfl | rfl
      · exact word_inFront h tail
      · exact word_inFront h tail
      · exact word_inFront h tail
      · exact text_inFront htail h
      · exact list_inFront hitems htail h hfuel
      · exact object_inFront hmembers htail h hfuel
    · exact number_inFront hc htail h

/-- With any amount of fuel, values are read in front of a tail as they are read on their own,
whatever they are expected to hold. -/
theorem inFront (fuel : Nat) : ValuesInFront fuel ∧ ItemsInFront fuel ∧ MembersInFront fuel := by
  induction fuel with
  | zero => exact ⟨nofun, nofun, nofun⟩
  | succ fuel ih =>
    obtain ⟨hvalues, hitems, hmembers⟩ := ih
    exact ⟨valuesInFront_succ hitems hmembers, itemsInFront_succ hvalues hitems,
      membersInFront_succ hvalues hmembers⟩

end Json

end LogRelay
