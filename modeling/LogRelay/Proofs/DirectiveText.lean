import LogRelay.Logging.Logbook
import Mathlib.Data.List.Forall2
import Mathlib.Data.List.TakeDrop
import Mathlib.Data.List.TakeWhile

/-!
# Reading a list of rules

A rule is a directive of the form `target=level`.  `TargetRule.IsWrittenAs` is its grammar: the
target begins with a letter, a number, a dash, a colon or an underscore, and has no equality sign
and no opening bracket in it; the equality sign follows, and then the level.

What a directive says is seen in its text without the blanks at the ends, and cut out of its text
with them, counted from the first character.  Blanks at the end do no harm, since what is taken
off comes back as the surplus.  Blanks in front shift the parts, so that the equality sign falls
into the level (`Directive.parse?_of_mark`); no level has one in it.  So every rule is read as it
is written (`TargetRule.parse?_eq`), and nothing else of the form is read at all
(`TargetRule.exists_of_parse?`).
-/

namespace LogRelay

/-! ## Blanks -/

namespace Text

theorem clear_of_mem_alphanumericRanges :
    ∀ range ∈ alphanumericRanges.toList, ∀ blanks ∈ [(0x85, 0x85), (0xA0, 0xA0), (0x1680, 0x1680),
      (0x2000, 0x200A), (0x2028, 0x2029), (0x202F, 0x202F), (0x205F, 0x205F), (0x3000, 0x3000)],
      range.2 < blanks.1 ∨ blanks.2 < range.1 := by
  decide +kernel

theorem not_isAlphanum_of_toNat_le {c : Char} (h : c.toNat ≤ 0x20) : c.isAlphanum = false := by
  have hval : c.val.toNat ≤ 0x20 := h
  have hcapital : ('A'.val).toNat = 65 := rfl
  have hsmall : ('a'.val).toNat = 97 := rfl
  have hdigit : ('0'.val).toNat = 48 := rfl
  delta Char.isAlphanum Char.isAlpha Char.isUpper Char.isLower Char.isDigit
  simp only [ge_iff_le, UInt32.le_iff_toNat_le, Bool.or_eq_false_iff, Bool.and_eq_false_iff,
    decide_eq_false_iff_not]
  omega

theorem not_isAlphanumeric_of_isBlank {c : Char} (h : isBlank c) : isAlphanumeric c = false := by
  simp only [isBlank, Bool.or_eq_true, Bool.and_eq_true, decide_eq_true_eq, beq_iff_eq] at h
  unfold isAlphanumeric
  split
  · next hascii => exact not_isAlphanum_of_toNat_le (by omega)
  · next hascii =>
    rw [← Array.any_toList, List.any_eq_false]
    intro range hrange
    have hclear := clear_of_mem_alphanumericRanges range hrange
    simp only [List.forall_mem_cons, List.not_mem_nil, false_implies, implies_true,
      and_true] at hclear
    simp only [Bool.and_eq_true, decide_eq_true_eq]
    omega

theorem isBlank_eq_false_of_mayBegin {c : Char} (h : Directive.mayBegin c) : isBlank c = false := by
  rw [Directive.mayBegin, Bool.or_eq_true] at h
  rcases h with hmark | hword
  · have hmarks : ∀ mark ∈ ['-', ':', '_'], isBlank mark = false :=
      List.forall_mem_cons.mpr ⟨by decide, List.forall_mem_cons.mpr ⟨by decide,
        List.forall_mem_singleton.mpr (by decide)⟩⟩
    exact hmarks c (List.contains_iff_mem.mp hmark)
  · rw [Bool.eq_false_iff]
    intro hblank
    rw [not_isAlphanumeric_of_isBlank hblank] at hword
    contradiction

theorem exists_blanks (text : List Char) :
    ∃ blanks shown, text = blanks ++ shown ∧ (∀ c ∈ blanks, isBlank c) ∧
      ∀ c ∈ shown.head?, isBlank c = false := by
  refine ⟨text.takeWhile isBlank, text.dropWhile isBlank,
    List.takeWhile_append_dropWhile.symm, fun c hc => List.mem_takeWhile_imp hc, ?_⟩
  intro c hc
  have hhead := List.head?_dropWhile_not isBlank text
  rw [hc] at hhead
  simpa using hhead

/-- What is no blank ends what is taken off the ends of a text. -/
theorem trimBlanks_append_cons {blanks front : List Char} {mark : Char}
    (hblanks : ∀ c ∈ blanks, isBlank c) (hfront : ∀ c ∈ front.head?, isBlank c = false)
    (hmark : isBlank mark = false) (back : List Char) :
    ∃ shown surplus, back = shown ++ surplus ∧
      trimBlanks (blanks ++ (front ++ mark :: back)) = front ++ mark :: shown := by
  obtain ⟨surplus, hsurplus⟩ := List.dropWhile_suffix isBlank (l := back.reverse)
  refine ⟨(back.reverse.dropWhile isBlank).reverse, surplus.reverse, ?_, ?_⟩
  · rw [← List.reverse_append, hsurplus, List.reverse_reverse]
  · have hdrop : dropBlanks (blanks ++ (front ++ mark :: back)) = front ++ mark :: back := by
      rw [dropBlanks, List.dropWhile_append_of_pos hblanks]
      cases front with
      | nil => exact List.dropWhile_cons_of_neg (by simp [hmark])
      | cons first front => exact List.dropWhile_cons_of_neg (by simp [hfront first rfl])
    rw [trimBlanks, hdrop, dropBlanks, List.reverse_append, List.reverse_cons, List.append_assoc,
      List.singleton_append, List.dropWhile_append]
    split
    · next hempty =>
      rw [List.isEmpty_iff] at hempty
      rw [List.dropWhile_cons_of_neg (by simp [hmark]), hempty]
      simp
    · simp

end Text

/-! ## Levels -/

theorem Decimal.unsigned?_of_mem {text : List Char} (h : '=' ∈ text) :
    unsigned? text = none := by
  have hnat : ∀ digits : List Char, '=' ∈ digits → nat? digits = none := by
    intro digits hmem
    have hall : digits.all Char.isDigit = false :=
      List.all_eq_false.mpr ⟨'=', hmem, by decide⟩
    simp [nat?, hall]
  unfold unsigned?
  split
  · next rest => exact hnat rest (by simpa using h)
  · exact hnat text h

/-- A level has no equality sign in it. -/
theorem Directive.threshold?_of_mem {text : List Char} (h : '=' ∈ text) :
    threshold? text = none := by
  have hne : ∀ word : List Char, '=' ∉ word → text.map Char.toLower ≠ word := by
    rintro word hword rfl
    exact hword (List.mem_map.mpr ⟨'=', h, by decide⟩)
  have hname : Level.ofName? text = none := by
    refine List.find?_eq_none.mpr ?_
    intro level _
    rw [decide_eq_true_eq]
    exact (hne _ (by cases level <;> decide)).symm
  have hempty : text.isEmpty = false := List.isEmpty_eq_false_iff.mpr (List.ne_nil_of_mem h)
  have hoff : text.map Char.toLower ≠ "off".toList := hne _ (by decide)
  simp [threshold?, Threshold.parse?, Level.parse?, hempty, hname, Decimal.unsigned?_of_mem h,
    -String.reduceToList, hoff]

/-! ## Rules -/

namespace Directive

theorem text_zipWith {shown kept : List Char} (h : shown.length ≤ kept.length) :
    Cell.text (shown.zipWith Cell.mk kept) = kept.take shown.length := by
  induction shown generalizing kept with
  | nil => simp [Cell.text]
  | cons c shown ih =>
    cases kept with
    | nil => simp at h
    | cons c' kept =>
      rw [List.zipWith_cons_cons, Cell.text, List.map_cons, List.length_cons, List.take_succ_cons]
      exact congrArg (c' :: ·) (ih (Nat.le_of_succ_le_succ h))

theorem seen_of_mem_zipWith {shown kept : List Char} {cell : Cell}
    (h : cell ∈ shown.zipWith Cell.mk kept) : cell.seen ∈ shown := by
  induction shown generalizing kept with
  | nil => simp at h
  | cons c shown ih =>
    cases kept with
    | nil => simp at h
    | cons c' kept =>
      rcases List.mem_cons.mp h with rfl | h
      · exact List.mem_cons_self
      · exact List.mem_cons_of_mem c (ih h)

theorem upTo_mark {shown : List Char} (h : ∀ c ∈ shown, c ≠ '=' ∧ c ≠ '[')
    (kept : List Char) (mark : Char) (rest : List Cell) :
    Cell.upTo ['=', '['] (shown.zipWith Cell.mk kept ++ ⟨'=', mark⟩ :: rest) =
      (shown.zipWith Cell.mk kept, ⟨'=', mark⟩ :: rest) := by
  have hclear : ∀ cell ∈ shown.zipWith Cell.mk kept,
      (!List.contains ['=', '['] cell.seen) = true := by
    intro cell hcell
    simp [h cell.seen (seen_of_mem_zipWith hcell)]
  rw [Cell.upTo, List.span_eq_takeWhile_dropWhile,
    List.takeWhile_append_of_pos hclear, List.dropWhile_append_of_pos hclear,
    List.takeWhile_cons_of_neg (by simp), List.dropWhile_cons_of_neg (by simp), List.append_nil]

/-- What is read of a text in which an equality sign comes before any bracket.  The target is as
long as the text up to that sign without blanks in front, but is taken from where the blanks
begin. -/
theorem parse?_of_mark {blanks front level text : List Char} {first : Char}
    (hblanks : ∀ c ∈ blanks, Text.isBlank c) (hfirst : Text.isBlank first = false)
    (hclear : ∀ c ∈ first :: front, c ≠ '=' ∧ c ≠ '[')
    (htext : text = blanks ++ (first :: front ++ '=' :: level)) :
    parse? text =
      if mayBegin first then
        (threshold? (text.drop (front.length + 2))).map fun threshold =>
          { target := some (String.ofList (text.take (front.length + 1))), threshold }
      else none := by
  obtain ⟨shown, surplus, hlevel, htrim⟩ := Text.trimBlanks_append_cons hblanks
    (by simp [hfirst] : ∀ c ∈ (first :: front).head?, Text.isBlank c = false)
    (by decide : Text.isBlank '=' = false) level
  rw [← htext] at htrim
  have hlong : front.length + 1 < text.length := by
    simp only [htext, List.length_append, List.length_cons]
    omega
  obtain ⟨kept, mark, rest, hkept, hsplit⟩ : ∃ kept mark rest, kept.length = front.length + 1 ∧
      text = kept ++ mark :: rest := by
    refine ⟨text.take (front.length + 1), text[front.length + 1], text.drop (front.length + 2),
      ?_, ?_⟩
    · rw [List.length_take]
      omega
    · rw [List.getElem_cons_drop, List.take_append_drop]
  have hshown : shown.length ≤ rest.length := by
    have hlength := congrArg List.length (hsplit.symm.trans htext)
    simp only [hlevel, List.length_append, List.length_cons] at hlength
    omega
  have htake : text.take (front.length + 1) = kept := by
    rw [hsplit, ← hkept, List.take_left]
  have hdrop : text.drop (front.length + 2) = rest := by
    rw [hsplit, ← List.singleton_append, ← List.append_assoc, List.drop_left' (by simp [hkept])]
  have hsurplus : text.drop (Text.trimBlanks text).length = rest.drop shown.length := by
    rw [htrim, ← hdrop, List.drop_drop]
    congr 1
    simp only [List.length_append, List.length_cons]
    omega
  have hcells : (Text.trimBlanks text).zipWith Cell.mk text =
      (first :: front).zipWith Cell.mk kept ++ ⟨'=', mark⟩ :: shown.zipWith Cell.mk rest := by
    rw [htrim, hsplit, List.zipWith_append (by simp [hkept]), List.zipWith_cons_cons]
  have hupTo := upTo_mark hclear kept mark (shown.zipWith Cell.mk rest)
  have hword : Cell.text ((first :: front).zipWith Cell.mk kept) = kept := by
    rw [text_zipWith (by simp [hkept]), List.take_of_length_le (by simp [hkept])]
  obtain ⟨c, kept', rfl⟩ := List.exists_cons_of_length_eq_add_one hkept
  have hbracket : first ≠ '[' := (hclear first List.mem_cons_self).2
  rw [List.zipWith_cons_cons, List.cons_append] at hcells hupTo
  rw [List.zipWith_cons_cons] at hword
  simp only [parse?, hcells, hupTo, hword, hsurplus, htake, hdrop, hbracket, if_false, if_true,
    text_zipWith hshown, List.take_append_drop]

/-- Blanks in front of an equality sign are no target. -/
theorem parse?_of_blanks {blanks : List Char} (hblanks : ∀ c ∈ blanks, Text.isBlank c)
    (level : List Char) : parse? (blanks ++ '=' :: level) = none := by
  obtain ⟨shown, surplus, -, htrim⟩ := Text.trimBlanks_append_cons hblanks
    (by simp : ∀ c ∈ ([] : List Char).head?, Text.isBlank c = false)
    (by decide : Text.isBlank '=' = false) level
  rw [List.nil_append, List.nil_append] at htrim
  obtain ⟨c, rest, hcons⟩ := List.exists_cons_of_ne_nil
    (List.append_ne_nil_of_right_ne_nil blanks (List.cons_ne_nil '=' level))
  have hbegin : mayBegin '=' = false := by decide
  rw [hcons] at htrim ⊢
  simp [parse?, htrim, hbegin]

end Directive

/-- Lets events up to a level pass whose targets begin with its own. -/
structure TargetRule where
  target : String
  threshold : Threshold

namespace TargetRule

/-- The text is `target=level`. -/
structure IsWrittenAs (rule : TargetRule) (text : List Char) : Prop where
  beginning : ∃ first rest, rule.target.toList = first :: rest ∧ Directive.mayBegin first
  noMark : ∀ c ∈ rule.target.toList, c ≠ '=' ∧ c ≠ '['
  level : ∃ level, text = rule.target.toList ++ '=' :: level ∧
    Directive.threshold? level = some rule.threshold

/-- The rule as a directive. -/
def directive (rule : TargetRule) : Directive :=
  { target := some rule.target, threshold := rule.threshold }

theorem drop_mark (first : Char) (front level : List Char) :
    (first :: front ++ '=' :: level).drop (front.length + 2) = level := by
  rw [List.append_cons, List.drop_left' (by simp)]

/-- A rule is read as it is written. -/
theorem parse?_eq {rule : TargetRule} {text : List Char} (h : rule.IsWrittenAs text) :
    Directive.parse? text = some rule.directive := by
  obtain ⟨first, rest, htarget, hfirst⟩ := h.beginning
  obtain ⟨level, htext, hlevel⟩ := h.level
  have hclear := h.noMark
  rw [htarget] at hclear htext
  have hread := Directive.parse?_of_mark (List.forall_mem_nil _)
    (Text.isBlank_eq_false_of_mayBegin hfirst) hclear htext
  rw [hread, if_pos hfirst, htext, drop_mark, hlevel, List.take_left' (by simp), ← htarget,
    String.ofList_toList]
  rfl

/-- Any other text with an equality sign before any bracket is not read at all. -/
theorem exists_of_parse? {target level : List Char} {directive : Directive}
    (hclear : ∀ c ∈ target, c ≠ '=' ∧ c ≠ '[')
    (h : Directive.parse? (target ++ '=' :: level) = some directive) :
    ∃ rule : TargetRule, rule.IsWrittenAs (target ++ '=' :: level) := by
  obtain ⟨blanks, shown, rfl, hblanks, hhead⟩ := Text.exists_blanks target
  cases shown with
  | nil =>
    rw [List.append_nil, Directive.parse?_of_blanks hblanks] at h
    contradiction
  | cons first front =>
    have hshown : ∀ c ∈ first :: front, c ≠ '=' ∧ c ≠ '[' := by
      intro c hc
      exact hclear c (List.mem_append_right blanks hc)
    rw [Directive.parse?_of_mark hblanks (hhead first rfl) hshown (List.append_assoc ..)] at h
    split at h
    · next hbegin =>
      obtain ⟨threshold, hlevel, -⟩ := Option.map_eq_some_iff.mp h
      cases blanks with
      | nil =>
        refine ⟨⟨String.ofList (first :: front), threshold⟩, ?_, ?_, level, ?_, ?_⟩
        · exact ⟨first, front, String.toList_ofList, hbegin⟩
        · rwa [String.toList_ofList]
        · rw [String.toList_ofList, List.nil_append]
        · rwa [List.nil_append, drop_mark] at hlevel
      | cons blank blanks =>
        -- the level begins too early, and the equality sign is part of it
        have hmem : '=' ∈ (blank :: blanks ++ first :: front ++ '=' :: level).drop
            (front.length + 2) := by
          rw [List.drop_append_of_le_length (by simp)]
          exact List.mem_append_right _ List.mem_cons_self
        rw [Directive.threshold?_of_mem hmem] at hlevel
        contradiction
    · contradiction

end TargetRule

/-! ## Lists of rules -/

/-- The directives of the settings are these rules; empty ones between commas do not count. -/
def LogConfig.Lists (config : LogConfig) (rules : List TargetRule) : Prop :=
  List.Forall₂ TargetRule.IsWrittenAs rules
    ((LogFilter.pieces (config.directives.getD "").toList).filter (!·.isEmpty))

/-- The name of a level is a directive for all targets. -/
theorem Directive.parse?_name (level : Level) :
    parse? level.name.toList = some { threshold := .upTo level } := by
  cases level <;> decide +kernel

namespace LogFilter

theorem pieces_append_comma (front back : List Char) :
    pieces (front ++ ',' :: back) = pieces front ++ pieces back :=
  List.splitOnP_append_cons front back (by decide)

theorem pieces_name (level : Level) : pieces level.name.toList = [level.name.toList] := by
  cases level <;> decide +kernel

theorem mapM_parse? {rules : List TargetRule} {texts : List (List Char)}
    (h : List.Forall₂ TargetRule.IsWrittenAs rules texts) :
    texts.mapM Directive.parse? = some (rules.map TargetRule.directive) := by
  induction h with
  | nil => rfl
  | cons hrule _ ih => simp [List.mapM_cons, TargetRule.parse?_eq hrule, ih]

theorem exists_rules {texts : List (List Char)} {directives : List Directive}
    (hform : ∀ text ∈ texts, ∃ target level, text = target ++ '=' :: level ∧
      ∀ c ∈ target, c ≠ '=' ∧ c ≠ '[')
    (hread : texts.mapM Directive.parse? = some directives) :
    ∃ rules, List.Forall₂ TargetRule.IsWrittenAs rules texts := by
  induction texts generalizing directives with
  | nil => exact ⟨[], .nil⟩
  | cons text texts ih =>
    simp only [List.mapM_cons, Option.bind_eq_bind, Option.bind_eq_some_iff] at hread
    obtain ⟨directive, hdirective, rest, hrest, -⟩ := hread
    obtain ⟨target, level, rfl, hclear⟩ := hform text List.mem_cons_self
    obtain ⟨rule, hrule⟩ := TargetRule.exists_of_parse? hclear hdirective
    obtain ⟨rules, hrules⟩ := ih (fun text h => hform text (List.mem_cons_of_mem _ h)) hrest
    exact ⟨rule :: rules, .cons hrule hrules⟩

end LogFilter

namespace LogConfig

variable {config : LogConfig} {rules : List TargetRule}

theorem pieces_filterText (config : LogConfig) :
    (LogFilter.pieces config.filterText.toList).filter (!·.isEmpty) =
      config.greatestLevel.name.toList ::
        (LogFilter.pieces (config.directives.getD "").toList).filter (!·.isEmpty) := by
  have hname : config.greatestLevel.name.toList.isEmpty = false := by
    cases config.greatestLevel <;> rfl
  unfold filterText
  cases config.directives with
  | none =>
    simp only [LogFilter.pieces_name, Option.getD_none]
    simp [LogFilter.pieces, hname]
  | some directives =>
    simp [LogFilter.pieces_append_comma, LogFilter.pieces_name, hname]

/-- The directives of the filter are the level for all targets and then the rules. -/
theorem filter?_of_lists (h : config.Lists rules) :
    config.filter? =
      some ⟨{ threshold := .upTo config.greatestLevel } :: rules.map TargetRule.directive⟩ := by
  rw [filter?, LogFilter.parse?, pieces_filterText, List.mapM_cons, Directive.parse?_name,
    LogFilter.mapM_parse? h]
  rfl

/-- Directives that are read and all have an equality sign before any bracket are rules. -/
theorem exists_lists
    (hform : ∀ text ∈ (LogFilter.pieces (config.directives.getD "").toList).filter (!·.isEmpty),
      ∃ target level, text = target ++ '=' :: level ∧ ∀ c ∈ target, c ≠ '=' ∧ c ≠ '[')
    {filter : LogFilter} (hread : config.filter? = some filter) :
    ∃ rules, config.Lists rules := by
  rw [filter?, LogFilter.parse?, pieces_filterText, List.mapM_cons, Directive.parse?_name] at hread
  obtain ⟨directives, hdirectives, -⟩ := Option.map_eq_some_iff.mp hread
  simp only [Option.bind_eq_bind, Option.bind_some, Option.bind_eq_some_iff] at hdirectives
  obtain ⟨rest, hrest, -⟩ := hdirectives
  exact LogFilter.exists_rules hform hrest

end LogConfig

end LogRelay
