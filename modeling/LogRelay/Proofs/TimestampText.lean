import LogRelay.Proofs.Calendar
import Mathlib.Data.List.TakeDrop
import Mathlib.Data.List.TakeWhile

/-!
# Reading back the text of a point in time

Every part of the text of a point in time is read back with exactly the characters it
takes up: numbers in their number of digits (`number?_padded`), the year with its sign
where it has one (`year?_yearText`), the fraction (`fraction?_fractionText`).  The date
and the time of day are those of the point in time again by `toDays_ofDays`.  So the text
of a point in time that is on the calendar reads back as that point (`parse?_text`), and
it has no more than fifty characters (`length_text_le`).
-/

namespace LogRelay

/-! ## Digits -/

namespace Decimal

theorem ofDigits_eq (digits : List Char) : ofDigits digits = Nat.ofDigitChars 10 digits 0 := by
  unfold ofDigits Nat.ofDigitChars
  congr
  funext value c
  rw [Nat.mul_comm]
  rfl

theorem toList_padded (width value : Nat) : (padded width value).toList =
    List.replicate (width - (Nat.toDigits 10 value).length) '0' ++ Nat.toDigits 10 value :=
  String.toList_ofList

theorem ofDigits_padded (width value : Nat) : ofDigits (padded width value).toList = value := by
  rw [ofDigits_eq, toList_padded, Nat.ofDigitChars_append, Nat.ofDigitChars_replicate_zero,
    Nat.mul_zero, Nat.ofDigitChars_ten_toDigits]

theorem isDigit_of_mem_padded {width value : Nat} {c : Char} (h : c ∈ (padded width value).toList) :
    c.isDigit = true := by
  rw [toList_padded] at h
  rcases List.mem_append.mp h with h | h
  · rw [List.eq_of_mem_replicate h]
    rfl
  · exact Nat.isDigit_of_mem_toDigits (by decide) (by decide) h

theorem length_padded {width value : Nat} (hwidth : 0 < width) (h : value < Nat.pow 10 width) :
    (padded width value).toList.length = width := by
  have hlength := (Nat.length_toDigits_le_iff (by decide) hwidth).mpr h
  simp only [toList_padded, List.length_append, List.length_replicate]
  omega

theorem length_padded_le {width value bound : Nat} (hpos : 0 < bound)
    (hwidth : width ≤ bound) (h : value < Nat.pow 10 bound) :
    (padded width value).toList.length ≤ bound := by
  have hlength := (Nat.length_toDigits_le_iff (by decide) hpos).mpr h
  simp only [toList_padded, List.length_append, List.length_replicate]
  omega

theorem padded_ne_nil (width value : Nat) : (padded width value).toList ≠ [] := by
  simp [toList_padded]

/-- A run of digits ends where something else begins. -/
theorem spanDigits_append {digits : List Char} (hdigits : ∀ c ∈ digits, c.isDigit = true)
    {next : Char} (hnext : next.isDigit = false) (rest : List Char) :
    spanDigits (digits ++ next :: rest) = (digits, next :: rest) := by
  rw [spanDigits, List.span_eq_takeWhile_dropWhile, List.takeWhile_append_of_pos hdigits,
    List.dropWhile_append_of_pos hdigits]
  simp [hnext]

end Decimal

namespace Timestamp

open Decimal (padded)

theorem isBlank_of_isDigit {c : Char} (h : c.isDigit = true) : Text.isBlank c = false := by
  simp only [Char.isDigit, Bool.and_eq_true, decide_eq_true_eq, UInt32.le_iff_toNat_le] at h
  have hlow : 48 ≤ c.toNat := h.1
  have hhigh : c.toNat ≤ 57 := h.2
  simp only [Text.isBlank, Bool.or_eq_false_iff, Bool.and_eq_false_iff, beq_eq_false_iff_ne,
    decide_eq_false_iff_not]
  omega

theorem dropBlanks_of_digits {digits : List Char} (hne : digits ≠ [])
    (h : ∀ c ∈ digits, c.isDigit = true) (rest : List Char) :
    Text.dropBlanks (digits ++ rest) = digits ++ rest := by
  obtain ⟨first, more, rfl⟩ := List.exists_cons_of_ne_nil hne
  have hfirst := isBlank_of_isDigit (h first (List.mem_cons_self ..))
  simp [Text.dropBlanks, hfirst]

/-! ## The parts -/

/-- A number in its full width is read back, whatever follows. -/
theorem number?_padded {width value : Nat} (hwidth : 0 < width) (h : value < Nat.pow 10 width)
    (rest : List Char) :
    number? width ((padded width value).toList ++ rest) = some (value, rest) := by
  have hdigits : ∀ c ∈ (padded width value).toList, c.isDigit = true :=
    fun _ => Decimal.isDigit_of_mem_padded
  have hne := Decimal.padded_ne_nil width value
  have htake : ((padded width value).toList ++ rest).take width = (padded width value).toList :=
    List.take_left' (Decimal.length_padded hwidth h)
  have hwhile : (padded width value).toList.takeWhile Char.isDigit = (padded width value).toList :=
    List.takeWhile_eq_self_iff.mpr hdigits
  rw [number?, dropBlanks_of_digits hne hdigits, htake, hwhile]
  simp only [List.isEmpty_eq_false_iff.mpr hne, Bool.false_eq_true, if_false,
    Decimal.ofDigits_padded, List.drop_left]

theorem mark?_self {c : Char} (h : Text.isBlank c = false) (rest : List Char) :
    mark? c (c :: rest) = some rest := by
  simp [mark?, Text.dropBlanks, h]

theorem year?_of_digit {first : Char} (h : first.isDigit = true) (rest : List Char) :
    year? (first :: rest) =
      (number? 4 (first :: rest)).map fun (year, rest) => ((year : Int), rest) := by
  have hblanks : Text.dropBlanks (first :: rest) = first :: rest := by
    simp [Text.dropBlanks, isBlank_of_isDigit h]
  rw [year?, hblanks]
  split
  · rename_i heq
    cases heq
    exact absurd h (by decide)
  · rename_i heq
    cases heq
    exact absurd h (by decide)
  · cases number? 4 (first :: rest) <;> rfl

/-- A year with its sign, where it has one, is read back up to the hyphen after it. -/
theorem year?_yearText (year : Int) (rest : List Char) :
    year? ((yearText year).toList ++ '-' :: rest) = some (year, '-' :: rest) := by
  unfold yearText
  split
  · rename_i hshort
    obtain ⟨first, more, hdigits⟩ := List.exists_cons_of_ne_nil
      (Decimal.padded_ne_nil 4 year.toNat)
    have hfirst : first.isDigit = true :=
      Decimal.isDigit_of_mem_padded (hdigits ▸ List.mem_cons_self ..)
    have hnumber : number? 4 ((padded 4 year.toNat).toList ++ '-' :: rest) =
        some (year.toNat, '-' :: rest) :=
      number?_padded (by omega) (show year.toNat < 10000 by omega) _
    rw [hdigits, List.cons_append] at hnumber ⊢
    rw [year?_of_digit hfirst, hnumber]
    have hyear : ((year.toNat : Nat) : Int) = year := by omega
    simp [hyear]
  · obtain ⟨value, hvalue⟩ : ∃ value, value = year.natAbs := ⟨_, rfl⟩
    rw [← hvalue]
    have hspan : Decimal.spanDigits ((padded 4 value).toList ++ '-' :: rest) =
        ((padded 4 value).toList, '-' :: rest) :=
      Decimal.spanDigits_append (fun _ => Decimal.isDigit_of_mem_padded) rfl rest
    have hne := List.isEmpty_eq_false_iff.mpr (Decimal.padded_ne_nil 4 value)
    split
    · rename_i hnegative
      have hyear : -(value : Int) = year := by omega
      simp [year?, Text.dropBlanks, Text.isBlank, hspan, hne, Decimal.ofDigits_padded, hyear]
    · rename_i hpositive
      have hyear : (value : Int) = year := by omega
      simp [year?, Text.dropBlanks, Text.isBlank, hspan, hne, Decimal.ofDigits_padded, hyear]

theorem fraction?_padded {width value : Nat} (hwidth : 0 < width) (hnine : width ≤ 9)
    (h : value < Nat.pow 10 width) (rest : List Char) :
    fraction? ('.' :: (padded width value).toList ++ 'Z' :: rest) =
      some (value * Nat.pow 10 (9 - width), 'Z' :: rest) := by
  have hlength := Decimal.length_padded hwidth h
  have hspan : Decimal.spanDigits ((padded width value).toList ++ 'Z' :: rest) =
      ((padded width value).toList, 'Z' :: rest) :=
    Decimal.spanDigits_append (fun _ => Decimal.isDigit_of_mem_padded) rfl rest
  have hne := List.isEmpty_eq_false_iff.mpr (Decimal.padded_ne_nil width value)
  have htake : (padded width value).toList.take 9 = (padded width value).toList :=
    List.take_of_length_le (by omega)
  simp only [fraction?, List.cons_append, hspan, hne, Bool.false_eq_true, if_false, htake, hlength,
    Decimal.ofDigits_padded]

/-- A fraction is read back, whether it has three, six or nine digits or none at all. -/
theorem fraction?_fractionText {nanoseconds : Nat} (h : nanoseconds < 1000000000)
    (rest : List Char) :
    fraction? ((fractionText nanoseconds).toList ++ 'Z' :: rest) =
      some (nanoseconds, 'Z' :: rest) := by
  have hdigits : ∀ {width value}, 0 < width → width ≤ 9 → value < Nat.pow 10 width →
      value * Nat.pow 10 (9 - width) = nanoseconds →
      fraction? (("." ++ padded width value).toList ++ 'Z' :: rest) =
        some (nanoseconds, 'Z' :: rest) := by
    intro width value hwidth hnine hvalue heq
    rw [← heq, ← fraction?_padded hwidth hnine hvalue rest, String.toList_append]
    rfl
  unfold fractionText
  split
  · rename_i hzero
    rw [hzero]
    rfl
  split
  · exact hdigits (by omega) (by omega) (show nanoseconds / 1000000 < 1000 by omega)
      (by simp; omega)
  split
  · exact hdigits (by omega) (by omega) (show nanoseconds / 1000 < 1000000 by omega)
      (by simp; omega)
  · exact hdigits (by omega) (by omega) h (by simp)

/-! ## The whole -/

/-- The point in time is on the calendar; beyond the nanoseconds of a second it is in a leap
second, which ends a minute. -/
structure IsOnCalendar (time : Timestamp) : Prop where
  firstYear_le : firstYear ≤ (Date.ofDays (time.seconds / 86400)).year
  le_lastYear : (Date.ofDays (time.seconds / 86400)).year ≤ lastYear
  nanoseconds_lt : time.nanoseconds < 1000000000 ∨
    time.nanoseconds < 2000000000 ∧ time.seconds % 60 = 59

theorem toList_text (time : Timestamp) :
    let date := Date.ofDays (time.seconds / 86400)
    let second := (time.seconds % 86400).toNat
    time.text.toList = (yearText date.year).toList ++ '-' :: ((padded 2 date.month).toList ++
      '-' :: ((padded 2 date.day).toList ++ 'T' :: ((padded 2 (second / 3600)).toList ++
        ':' :: ((padded 2 (second / 60 % 60)).toList ++
          ':' :: ((padded 2 (second % 60 + time.nanoseconds / 1000000000)).toList ++
            ((fractionText (time.nanoseconds % 1000000000)).toList ++ ['Z'])))))) := by
  simp [text]

theorem ofParts?_ofDays {time : Timestamp} (h : time.IsOnCalendar) :
    ofParts? (Date.ofDays (time.seconds / 86400)) ((time.seconds % 86400).toNat / 3600)
      ((time.seconds % 86400).toNat / 60 % 60)
      ((time.seconds % 86400).toNat % 60 + time.nanoseconds / 1000000000)
      (time.nanoseconds % 1000000000) 0 = some time := by
  obtain ⟨seconds, nanoseconds⟩ := time
  obtain ⟨hfirst, hlast, hnanoseconds⟩ := h
  obtain ⟨hmonth, hmonth', hday, hday'⟩ := ofDays_exists (seconds / 86400)
  simp only at hfirst hlast hnanoseconds ⊢
  have hvalid : (Date.ofDays (seconds / 86400)).isValid = true := by
    simp [Date.isValid, hfirst, hlast, hmonth, hmonth', hday, hday']
  have hbounds : (seconds % 86400).toNat / 3600 ≤ 23 ∧ (seconds % 86400).toNat / 60 % 60 ≤ 59 ∧
      (seconds % 86400).toNat % 60 + nanoseconds / 1000000000 ≤ 60 ∧ (0 : Int).natAbs < 86400 := by
    omega
  -- In a leap second the sixtieth second stands for one more thousand million nanoseconds.
  have hleap : ((seconds % 86400).toNat % 60 + nanoseconds / 1000000000) / 60 =
      nanoseconds / 1000000000 := by
    omega
  have hseconds : seconds / 86400 * 86400 + (((seconds % 86400).toNat / 3600 * 3600 +
      (seconds % 86400).toNat / 60 % 60 * 60 + ((seconds % 86400).toNat % 60 +
        nanoseconds / 1000000000 - nanoseconds / 1000000000) : Nat) : Int) - 0 = seconds := by
    omega
  rw [ofParts?, if_pos ⟨hvalid, hbounds⟩]
  simp only [hleap, toDays_ofDays, hseconds]
  rw [if_pos ⟨hfirst, hlast⟩]
  congr 2
  omega

theorem bind_eq_of_some {α β : Type} {read : Option α} {next : α → Option β} {value : α}
    {result : Option β} (hread : read = some value) (hnext : next value = result) :
    (read >>= next) = result := by
  rw [hread]
  exact hnext

/-- The parts of a text are read one after the other. -/
theorem parse?_of_toList {text : String} {year : Int}
    {month day hour minute second nanoseconds : Nat} (hmonth : month < 100)
    (hday : day < 100) (hhour : hour < 100) (hminute : minute < 100)
    (hsecond : second < 100) (hnanoseconds : nanoseconds < 1000000000)
    (h : text.toList = (yearText year).toList ++ '-' :: ((padded 2 month).toList ++
      '-' :: ((padded 2 day).toList ++ 'T' :: ((padded 2 hour).toList ++
        ':' :: ((padded 2 minute).toList ++ ':' :: ((padded 2 second).toList ++
          ((fractionText nanoseconds).toList ++ ['Z']))))))) :
    parse? text = ofParts? ⟨year, month, day⟩ hour minute second nanoseconds 0 := by
  have hpositive : 0 < 2 := Nat.zero_lt_two
  rw [parse?, h]
  apply bind_eq_of_some (year?_yearText year _)
  apply bind_eq_of_some (mark?_self rfl _)
  apply bind_eq_of_some (number?_padded hpositive hmonth _)
  apply bind_eq_of_some (mark?_self rfl _)
  apply bind_eq_of_some (number?_padded hpositive hday _)
  apply bind_eq_of_some rfl
  apply bind_eq_of_some (number?_padded hpositive hhour _)
  apply bind_eq_of_some (mark?_self rfl _)
  apply bind_eq_of_some (number?_padded hpositive hminute _)
  apply bind_eq_of_some (mark?_self rfl _)
  apply bind_eq_of_some (number?_padded hpositive hsecond _)
  apply bind_eq_of_some (fraction?_fractionText hnanoseconds _)
  apply bind_eq_of_some rfl
  rfl

/-- The text of a point in time that is on the calendar reads back as that point. -/
theorem parse?_text {time : Timestamp} (h : time.IsOnCalendar) : parse? time.text = some time := by
  obtain ⟨hmonth, hmonth', hday, hday'⟩ := ofDays_exists (time.seconds / 86400)
  have hnanoseconds := h.nanoseconds_lt
  have hlast := daysInMonth_le (Date.ofDays (time.seconds / 86400)).year
    (Date.ofDays (time.seconds / 86400)).month
  have hmonthText : (Date.ofDays (time.seconds / 86400)).month < 100 := by omega
  have hdayText : (Date.ofDays (time.seconds / 86400)).day < 100 := by omega
  have hhour : (time.seconds % 86400).toNat / 3600 < 100 := by omega
  have hminute : (time.seconds % 86400).toNat / 60 % 60 < 100 := by omega
  have hsecond : (time.seconds % 86400).toNat % 60 + time.nanoseconds / 1000000000 < 100 := by
    omega
  have hfraction : time.nanoseconds % 1000000000 < 1000000000 := by omega
  rw [parse?_of_toList hmonthText hdayText hhour hminute hsecond hfraction (toList_text time)]
  exact ofParts?_ofDays h

/-! ## The length of the text -/

theorem length_yearText_le {year : Int} (h : firstYear ≤ year) (h' : year ≤ lastYear) :
    (yearText year).toList.length ≤ 7 := by
  unfold firstYear at h
  unfold lastYear at h'
  unfold yearText
  split
  · exact Decimal.length_padded_le (by omega) (by omega) (show year.toNat < 10000000 by omega)
  · have hdigits : (padded 4 year.natAbs).toList.length ≤ 6 :=
      Decimal.length_padded_le (by omega) (by omega) (show year.natAbs < 1000000 by omega)
    rw [String.toList_append, List.length_append]
    split <;> simp <;> omega

theorem length_fractionText_le {nanoseconds : Nat} (h : nanoseconds < 1000000000) :
    (fractionText nanoseconds).toList.length ≤ 10 := by
  have hdigits : ∀ {width value}, width ≤ 9 → value < 1000000000 →
      ("." ++ padded width value).toList.length ≤ 10 := by
    intro width value hwidth hvalue
    have hlength := Decimal.length_padded_le (by decide) hwidth hvalue
    rw [String.toList_append, List.length_append]
    simp
    omega
  unfold fractionText
  split
  · simp
  split
  · exact hdigits (by omega) (by omega)
  split
  · exact hdigits (by omega) (by omega)
  · exact hdigits (by omega) (by omega)

theorem length_text_le {time : Timestamp} (h : time.IsOnCalendar) :
    time.text.toList.length ≤ 50 := by
  obtain ⟨hmonth, hmonth', hday, hday'⟩ := ofDays_exists (time.seconds / 86400)
  have hnanoseconds := h.nanoseconds_lt
  have hyear := length_yearText_le h.firstYear_le h.le_lastYear
  have hfraction := length_fractionText_le
    (show time.nanoseconds % 1000000000 < 1000000000 by omega)
  have hlast := daysInMonth_le (Date.ofDays (time.seconds / 86400)).year
    (Date.ofDays (time.seconds / 86400)).month
  have htwo : ∀ {value : Nat}, value < 100 → (padded 2 value).toList.length ≤ 2 :=
    fun hvalue => Decimal.length_padded_le (by decide) (by decide) hvalue
  have hmonthText := htwo (show (Date.ofDays (time.seconds / 86400)).month < 100 by omega)
  have hdayText := htwo (show (Date.ofDays (time.seconds / 86400)).day < 100 by omega)
  have hhour := htwo (show (time.seconds % 86400).toNat / 3600 < 100 by omega)
  have hminute := htwo (show (time.seconds % 86400).toNat / 60 % 60 < 100 by omega)
  have hsecond := htwo
    (show (time.seconds % 86400).toNat % 60 + time.nanoseconds / 1000000000 < 100 by omega)
  rw [toList_text]
  simp only [List.length_append, List.length_cons, List.length_nil]
  omega

end Timestamp

end LogRelay
