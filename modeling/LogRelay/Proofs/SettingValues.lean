import LogRelay.Proofs.EnvironmentPlaces

/-!
# Values of settings in files and in variables

What a file has to hold for a setting to have a value (`SettingKind.Shows`), and how the value is
spelled in a variable (`SettingKind.Spells`), said without the way in which it is read.  Texts in
variables have to be words (`Environment.IsWord`): what can be read as a truth value or a number
is not taken as a text.
-/

namespace LogRelay

/-! ## What a text in a variable stands for -/

namespace Environment

/-- The truth value that a text stands for. -/
def truth? (text : String) : Option Bool :=
  let small := text.toList.map smallLetter
  if small = "true".toList then some true
  else if small = "false".toList then some false
  else none

/-- The text can be read neither as a truth value nor as a number. -/
structure IsWord (text : String) : Prop where
  noTruth : truth? text = none
  noWhole : Decimal.int64? text.toList = none
  noNumber : Decimal.float? text = none

variable {text : String}

theorem eq_of_smallLetter {c small : Char} (h : smallLetter c = small) (capital : Char)
    (hcapital : capital.isUpper = true) (hsmall : capital.toLower = small) (hk : small ≠ 'k') :
    c = small ∨ c = capital := by
  rw [smallLetter] at h
  split at h
  next => exact absurd h.symm hk
  next =>
    delta Char.toLower at h hsmall
    delta Char.isUpper at hcapital
    split at h
    next =>
      rw [dif_pos (by simpa using hcapital)] at hsmall
      have hval := congrArg Char.val (h.trans hsmall.symm)
      exact .inr (Char.ext ((UInt32.add_left_inj _).mp hval))
    next => exact .inl h

/-- A truth value begins with a letter that begins no number. -/
theorem exists_of_truth? {value : Bool} (h : truth? text = some value) :
    ∃ first rest, text.toList = first :: rest ∧ first ∈ ['t', 'T', 'f', 'F'] := by
  have hsplit {small : Char} {word : List Char}
      (hword : text.toList.map smallLetter = small :: word) :
      ∃ first rest, text.toList = first :: rest ∧ smallLetter first = small := by
    obtain ⟨first, rest, htext, hfirst, -⟩ := List.map_eq_cons_iff.mp hword
    exact ⟨first, rest, htext, hfirst⟩
  simp only [truth?] at h
  split at h
  next htrue =>
    obtain ⟨first, rest, htext, hfirst⟩ := hsplit htrue
    rcases eq_of_smallLetter hfirst 'T' (by decide) (by decide) (by decide) with
      rfl | rfl <;> exact ⟨_, rest, htext, by decide⟩
  next =>
    split at h
    next hfalse =>
      obtain ⟨first, rest, htext, hfirst⟩ := hsplit hfalse
      rcases eq_of_smallLetter hfirst 'F' (by decide) (by decide) (by decide) with
        rfl | rfl <;> exact ⟨_, rest, htext, by decide⟩
    next => cases h

/-- No text is both a truth value and a number. -/
theorem not_number_of_truth? {value : Bool} (h : truth? text = some value) :
    Decimal.int64? text.toList = none ∧ Decimal.float? text = none := by
  obtain ⟨first, rest, htext, hfirst⟩ := exists_of_truth? h
  simp only [List.mem_cons, List.not_mem_nil, or_false] at hfirst
  rw [Decimal.float?, htext]
  rcases hfirst with rfl | rfl | rfl | rfl <;>
    simp [Decimal.int64?, Decimal.signed?, Decimal.nat?, Decimal.unsignedFloat?,
      Decimal.magnitude?, Decimal.spanDigits, List.span_eq_takeWhile_dropWhile]

theorem ofText_of_truth? {value : Bool} (h : truth? text = some value) :
    ofText text = .bool value := by
  simp only [truth?] at h
  rw [ofText]
  split at h
  next htrue =>
    cases h
    exact if_pos htrue
  next htrue =>
    split at h
    next hfalse =>
      cases h
      rw [if_neg htrue, if_pos hfalse]
    next => cases h

theorem ofText_of_no_truth (h : truth? text = none) :
    ofText text =
      match Decimal.int64? text.toList, Decimal.float? text with
      | some value, _ => .int value
      | none, some value => .float value
      | none, none => .text text := by
  simp only [truth?] at h
  rw [ofText]
  split at h
  next => cases h
  next htrue =>
    split at h
    next => cases h
    next hfalse => exact (if_neg htrue).trans (if_neg hfalse)

theorem ofText_of_int64? {value : Int} (h : Decimal.int64? text.toList = some value) :
    ofText text = .int value := by
  cases htruth : truth? text with
  | some truth => cases h.symm.trans (not_number_of_truth? htruth).1
  | none =>
      rw [ofText_of_no_truth htruth, h]

theorem ofText_of_float? {value : Float} (hwhole : Decimal.int64? text.toList = none)
    (h : Decimal.float? text = some value) : ofText text = .float value := by
  cases htruth : truth? text with
  | some truth => cases h.symm.trans (not_number_of_truth? htruth).2
  | none =>
      rw [ofText_of_no_truth htruth, hwhole, h]

theorem ofText_of_isWord (h : IsWord text) : ofText text = .text text := by
  rw [ofText_of_no_truth h.noTruth, h.noWhole, h.noNumber]

end Environment

/-! ## Values -/

/-- The name of a format. -/
def LogFormat.name : LogFormat → String
  | json => "json"
  | plain => "plain"

/-- The name of an output. -/
def LogOutput.name : LogOutput → String
  | stdout => "stdout"
  | file => "file"

theorem LogFormat.isWord_name (format : LogFormat) : Environment.IsWord format.name := by
  cases format <;>
    exact ⟨by decide, by decide, Option.isNone_iff_eq_none.mp (by decide)⟩

theorem LogOutput.isWord_name (output : LogOutput) : Environment.IsWord output.name := by
  cases output <;>
    exact ⟨by decide, by decide, Option.isNone_iff_eq_none.mp (by decide)⟩

namespace SettingKind

/-- A value of a file says that a setting has the given value. -/
def Shows : (kind : SettingKind) → Setting → kind.Value → Prop
  | count, there, value => there = .int (UInt64.toNat value)
  | factor, there, value => there = .float value ∨ ∃ whole, there = .int whole ∧
      value = Float.ofInt whole
  | text, there, value => there = .text value
  | optionalText, there, value => there = (Option.map Setting.text value).getD .nil
  | format, there, value => there = .text (LogFormat.name value)
  | output, there, value => there = .text (LogOutput.name value)

/-- The text of a variable says that a setting has the given value. -/
def Spells : (kind : SettingKind) → String → kind.Value → Prop
  | count, written, value => Decimal.int64? written.toList = some (UInt64.toNat value : Int)
  | factor, written, value =>
      match Decimal.int64? written.toList with
      | some whole => value = Float.ofInt whole
      | none => Decimal.float? written = some value
  | text, written, value => value = written ∧ Environment.IsWord written
  | optionalText, written, value => value = some written ∧ Environment.IsWord written
  | format, written, value => written = LogFormat.name value
  | output, written, value => written = LogOutput.name value

variable {kind : SettingKind} {there : Setting} {written : String} {value : kind.Value}

theorem count?_int (value : UInt64) : Setting.count? (.int value.toNat) = some value := by
  simp [Setting.count?]

theorem read?_of_shows (h : kind.Shows there value) : kind.read? there = some value := by
  cases kind with
  | count =>
      obtain rfl : there = .int (UInt64.toNat value) := h
      exact count?_int value
  | factor =>
      rcases h with rfl | ⟨whole, rfl, rfl⟩ <;> rfl
  | text =>
      obtain rfl : there = .text value := h
      rfl
  | optionalText =>
      obtain rfl : there = (Option.map Setting.text value).getD .nil := h
      cases value <;> rfl
  | format =>
      obtain rfl : there = .text (LogFormat.name value) := h
      cases value <;> rfl
  | output =>
      obtain rfl : there = .text (LogOutput.name value) := h
      cases value <;> rfl

theorem read?_of_spells (h : kind.Spells written value) :
    kind.read? (Environment.ofText written) = some value := by
  cases kind with
  | count =>
      rw [Environment.ofText_of_int64? h]
      exact count?_int value
  | factor =>
      rw [Spells] at h
      split at h
      next whole hwhole =>
        rw [Environment.ofText_of_int64? hwhole, h]
        rfl
      next hwhole =>
        rw [Environment.ofText_of_float? hwhole h]
        rfl
  | text =>
      obtain ⟨rfl, hword⟩ := h
      rw [Environment.ofText_of_isWord hword]
      rfl
  | optionalText =>
      obtain ⟨rfl, hword⟩ := h
      rw [Environment.ofText_of_isWord hword]
      rfl
  | format =>
      obtain rfl : written = LogFormat.name value := h
      rw [Environment.ofText_of_isWord (LogFormat.isWord_name value)]
      cases value <;> rfl
  | output =>
      obtain rfl : written = LogOutput.name value := h
      rw [Environment.ofText_of_isWord (LogOutput.isWord_name value)]
      cases value <;> rfl

end SettingKind

end LogRelay
