import LogRelay.Proofs.AddedVariable
import LogRelay.Proofs.TimestampText

/-!
# Texts in variables

Some settings are texts.  The text in a variable is first taken as a truth value or a number if it
can be read as one, and then written down again for such a setting (`Environment.kept`).  So it is
kept as it is only if it is written in the same way again (`Environment.IsKept`): a word, a truth
value in small letters, a whole number without a plus sign and superfluous zeros, or any other
number in its shortest form.
-/

namespace LogRelay

/-! ## Whole numbers as they are written -/

namespace Decimal

theorem nat?_toDigits (value : Nat) : nat? (Nat.toDigits 10 value) = some value := by
  have hfilled : (Nat.toDigits 10 value).isEmpty = false :=
    List.isEmpty_eq_false_iff.mpr Nat.toDigits_ne_nil
  have hdigits : (Nat.toDigits 10 value).all Char.isDigit = true :=
    List.all_eq_true.mpr fun c hc => Nat.isDigit_of_mem_toDigits (by decide) (by decide) hc
  have hvalue : ofDigits (Nat.toDigits 10 value) = value := by
    rw [ofDigits_eq, Nat.ofDigitChars_ten_toDigits]
  simp [nat?, hfilled, hdigits, hvalue]

/-- Digits have no sign in front. -/
theorem signed?_toDigits (value : Nat) : signed? (Nat.toDigits 10 value) = some (value : Int) := by
  have hdigit : ∀ c ∈ Nat.toDigits 10 value, c.isDigit = true :=
    fun c hc => Nat.isDigit_of_mem_toDigits (by decide) (by decide) hc
  rw [signed?.eq_def]
  split
  next htext => exact absurd (hdigit '-' (htext ▸ List.mem_cons_self)) (by decide)
  next htext => exact absurd (hdigit '+' (htext ▸ List.mem_cons_self)) (by decide)
  next =>
    rw [nat?_toDigits]
    rfl

theorem signed?_toString (value : Int) : signed? (toString value).toList = some value := by
  cases value with
  | ofNat value =>
      have htext : (toString (Int.ofNat value)).toList = Nat.toDigits 10 value := by
        rw [show toString (Int.ofNat value) = value.repr from rfl, Nat.repr_eq_ofList_toDigits,
          String.toList_ofList]
      rw [htext, signed?_toDigits]
      rfl
  | negSucc value =>
      have htext : (toString (Int.negSucc value)).toList = '-' :: Nat.toDigits 10 (value + 1) := by
        rw [show toString (Int.negSucc value) = "-" ++ (value + 1).repr from rfl,
          Nat.repr_eq_ofList_toDigits, String.toList_append]
        exact congrArg ('-' :: ·) String.toList_ofList
      rw [htext, signed?, nat?_toDigits]
      rfl

theorem int64?_toString {value : Int} (h : leastInt64 ≤ value ∧ value ≤ greatestInt64) :
    int64? (toString value).toList = some value := by
  rw [int64?, signed?_toString]
  exact if_pos h

theorem int64?_le {text : List Char} {value : Int} (h : int64? text = some value) :
    leastInt64 ≤ value ∧ value ≤ greatestInt64 := by
  obtain ⟨read, -, hread⟩ := Option.bind_eq_some_iff.mp h
  split at hread
  next hrange =>
    cases hread
    exact hrange
  next => cases hread

end Decimal

/-! ## What is kept of a text -/

namespace Environment

/-- What a setting that is a text has from the text in a variable. -/
def kept (text : String) : String :=
  match truth? text, Decimal.int64? text.toList, Decimal.float? text with
  | some value, _, _ => toString value
  | none, some value, _ => toString value
  | none, none, some value => Decimal.Layout.plain.text value
  | none, none, none => text

/-- The text is written down again as it is. -/
inductive IsKept : String → Prop
  | word {text : String} (h : IsWord text) : IsKept text
  | truth (value : Bool) : IsKept (toString value)
  | whole {value : Int} (h : Decimal.leastInt64 ≤ value ∧ value ≤ Decimal.greatestInt64) :
      IsKept (toString value)
  | number {text : String} {value : Float} (hwhole : Decimal.int64? text.toList = none)
      (h : Decimal.float? text = some value) (htext : Decimal.Layout.plain.text value = text) :
      IsKept text

variable {text : String}

theorem text?_ofText (text : String) : (ofText text).text? = some (kept text) := by
  rw [kept]
  cases htruth : truth? text with
  | some value => rw [ofText_of_truth? htruth, Setting.text?]
  | none =>
      rw [ofText_of_no_truth htruth]
      cases Decimal.int64? text.toList with
      | some value => rfl
      | none => cases Decimal.float? text <;> rfl

theorem truth?_eq_none_of_number
    (h : Decimal.int64? text.toList ≠ none ∨ Decimal.float? text ≠ none) : truth? text = none := by
  refine Option.eq_none_iff_forall_ne_some.mpr fun value hvalue => ?_
  obtain ⟨hwhole, hnumber⟩ := not_number_of_truth? hvalue
  exact h.elim (· hwhole) (· hnumber)

theorem kept_eq_self_iff : kept text = text ↔ IsKept text := by
  constructor
  · intro h
    rw [kept] at h
    split at h
    next => exact h ▸ .truth _
    next hwhole => exact h ▸ .whole (Decimal.int64?_le hwhole)
    next hwhole hnumber => exact .number hwhole hnumber h
    next htruth hwhole hnumber => exact .word ⟨htruth, hwhole, hnumber⟩
  · intro h
    cases h with
    | word h => rw [kept, h.noTruth, h.noWhole, h.noNumber]
    | truth value => cases value <;> rfl
    | @whole value h =>
        have hwhole := Decimal.int64?_toString h
        have hne : Decimal.int64? (toString value).toList ≠ none := hwhole ▸ Option.some_ne_none _
        rw [kept, truth?_eq_none_of_number (.inl hne), hwhole]
    | number hwhole h htext =>
        rw [kept, truth?_eq_none_of_number (.inr (h ▸ Option.some_ne_none _)), hwhole, h]
        exact htext

end Environment

/-! ## Settings that are texts -/

namespace SettingKind

/-- The text that a value is. -/
def text? : (kind : SettingKind) → kind.Value → Option String
  | text, value => some value
  | optionalText, value => value
  | _, _ => none

/-- A text can be read from everything that can be written as one. -/
theorem exists_of_text? {kind : SettingKind} (hkind : kind = .text ∨ kind = .optionalText)
    {there : Setting} {written : String} (h : there.text? = some written) :
    ∃ value, kind.read? there = some value ∧ kind.text? value = some written := by
  rcases hkind with rfl | rfl
  · exact ⟨written, h, rfl⟩
  · have hpresent : Setting.lenient.isAbsent there = false := by
      cases there with
      | nil => cases h
      | _ => rfl
    have hwritten : Setting.lenient.text? there = some written := h
    have hread : Setting.lenient.optionalText? there = some (some written) := by
      rw [SettingNotation.optionalText?, hpresent, hwritten]
      rfl
    exact ⟨some written, hread, rfl⟩

end SettingKind

namespace NodeConfig

variable {files : List SettingsFile} {name text : String} {environment : List (String × String)}
  {file env : Assignment} {setting : NodeSetting}

/-- A setting that is a text has from a variable what is kept of the text in it.  This is the text
itself only if it is written down again as it is.  All other settings stay as they are. -/
theorem load_text_setting (hfile : SettingsFile.Gives files name file)
    (hsetting : setting ∈ [.dbPath, .level, .directives, .filePath])
    (henv : Environment.Adds environment setting.path text env) (path : String) :
    ∃ config, load files name path environment = .ok config ∧
      setting.kind.text? (config.value setting) = some (Environment.kept text) ∧
      (setting.kind.text? (config.value setting) = some text ↔ Environment.IsKept text) ∧
      ∀ other ≠ setting, config.value other =
        ((env other).or (file other)).getD other.default := by
  have hkind : setting.kind = .text ∨ setting.kind = .optionalText := by
    simp only [List.mem_cons, List.not_mem_nil, or_false] at hsetting
    rcases hsetting with rfl | rfl | rfl | rfl <;> decide
  obtain ⟨value, hvalue, hkept⟩ :=
    SettingKind.exists_of_text? hkind (Environment.text?_ofText text)
  refine ⟨_, load_of_added hfile henv hvalue path, ?_, ?_, fun other hother => ?_⟩
  · rw [value_ofValues, Function.update_self, hkept]
  · rw [value_ofValues, Function.update_self, hkept, Option.some_inj,
      Environment.kept_eq_self_iff]
  · rw [value_ofValues, Function.update_of_ne hother, prefer]

/-- An environment with a name of a file that can be read as a number. -/
def numberSample : List (String × String) :=
  (NodeSetting.filePath.variableName, "007") :: Environment.sample

theorem numberSample_adds :
    Environment.Adds numberSample NodeSetting.filePath.path "007" .sampleEnvironment :=
  Environment.sample_gives.adds (by decide +kernel) "007"

/-- The log goes to another file. -/
theorem sample_load_text_setting :
    SettingsFile.Gives [.sample] SettingsFile.sample.name .sampleFile ∧
      Environment.Adds numberSample NodeSetting.filePath.path "007" .sampleEnvironment ∧
      ∃ config, load [.sample] SettingsFile.sample.name "n.toml" numberSample = .ok config ∧
        config.log.filePath = some "7" := by
  obtain ⟨config, hload, hkept, -⟩ :=
    load_text_setting SettingsFile.sample_gives (by decide) numberSample_adds "n.toml"
  exact ⟨SettingsFile.sample_gives, numberSample_adds, config, hload, hkept⟩

end NodeConfig

end LogRelay
