import LogRelay.Timestamp

/-!
# Days of the calendar

Counting days and finding the day with a given count undo each other, and the day that is
found exists in its month.

Years are counted from March, in eras of 400 of them.  `yearStart` is the first day of a
year of its era.  The quotient by which `Date.ofDays` finds the year grows with the day
(`yearQuotient_mono`), so it is enough to look at the first and the last day of each of
the 400 years (`yearQuotient_bounds`).
-/

namespace LogRelay.Timestamp

/-- The day of its era on which a year begins. -/
def yearStart (year : Nat) : Nat := 365 * year + year / 4 - year / 100 + year / 400

/-- The day of its era with the leap days before it left out, so that 365 days are a year. -/
def withoutLeapDays (day : Nat) : Nat := day - day / 1460 + day / 36524 - day / 146096

theorem withoutLeapDays_succ {day : Nat} (h : day + 1 < 146097) :
    withoutLeapDays day ≤ withoutLeapDays (day + 1) := by
  unfold withoutLeapDays
  omega

theorem withoutLeapDays_mono {first second : Nat} (hle : first ≤ second) (h : second < 146097) :
    withoutLeapDays first ≤ withoutLeapDays second := by
  induction hle with
  | refl => exact Nat.le_refl _
  | step hle ih => exact Nat.le_trans (ih (by omega)) (withoutLeapDays_succ h)

theorem withoutLeapDays_bounds : ∀ year < 400, yearStart (year + 1) ≤ 146097 ∧
    365 * year ≤ withoutLeapDays (yearStart year) ∧
      withoutLeapDays (yearStart (year + 1) - 1) < 365 * (year + 1) := by
  decide +kernel

theorem exists_year {day years : Nat} (h : day < yearStart years) :
    ∃ year < years, yearStart year ≤ day ∧ day < yearStart (year + 1) := by
  induction years with
  | zero => exact absurd h (Nat.not_lt_zero day)
  | succ years ih =>
      by_cases hday : day < yearStart years
      · obtain ⟨year, hlt, hyear⟩ := ih hday
        exact ⟨year, by omega, hyear⟩
      · exact ⟨years, by omega, Nat.not_lt.mp hday, h⟩

/-- The year of a day of an era, with the day of the year. -/
theorem exists_year_of_lt {day : Nat} (h : day < 146097) : ∃ year < 400,
    withoutLeapDays day / 365 = year ∧ yearStart year ≤ day ∧ day < yearStart (year + 1) := by
  have hera : day < yearStart 400 := h
  obtain ⟨year, hyear, hstart, hend⟩ := exists_year hera
  obtain ⟨hbound, hfirst, hlast⟩ := withoutLeapDays_bounds year hyear
  have hlow := withoutLeapDays_mono hstart h
  have hhigh := withoutLeapDays_mono (show day ≤ yearStart (year + 1) - 1 by omega) (by omega)
  refine ⟨year, hyear, ?_, hstart, hend⟩
  omega

theorem daysInMonth_le (year : Int) (month : Nat) : daysInMonth year month ≤ 31 := by
  unfold daysInMonth
  split <;> split <;> omega

/-- The months of a year from March, and their days. -/
theorem month_of_day : ∀ day < 366,
    let shifted := (5 * day + 2) / 153
    let ofMonth := day - (153 * shifted + 2) / 5 + 1
    let month := if shifted < 10 then shifted + 3 else shifted - 9
    (month + 9) % 12 = shifted ∧ 1 ≤ month ∧ month ≤ 12 ∧ 1 ≤ ofMonth ∧
      (153 * shifted + 2) / 5 + ofMonth = day + 1 ∧
      ofMonth ≤ (if month = 2 then (if day = 365 then 29 else 28)
        else if month ∈ [4, 6, 9, 11] then 30 else 31) := by
  decide +kernel

theorem yearStart_succ_le (year : Nat) : yearStart (year + 1) ≤ yearStart year + 366 := by
  unfold yearStart
  omega

/-- A year of 366 days ends with the leap day of the next year. -/
theorem isLeap_of_long {year : Nat} (h : yearStart year + 365 < yearStart (year + 1)) (era : Int) :
    isLeap (year + era * 400 + 1) = true := by
  unfold yearStart at h
  simp only [isLeap, Bool.and_eq_true, Bool.or_eq_true, beq_iff_eq, bne_iff_ne]
  omega

/-- Where a day is in its era. -/
theorem exists_ofDays (days : Int) : ∃ (era : Int) (year day : Nat), year < 400 ∧ day < 366 ∧
    days + 719468 = era * 146097 + (yearStart year + day : Nat) ∧
    (day = 365 → isLeap (year + era * 400 + 1) = true) ∧
    let shifted := (5 * day + 2) / 153
    let month := if shifted < 10 then shifted + 3 else shifted - 9
    Date.ofDays days =
      ⟨if month ≤ 2 then (year : Int) + era * 400 + 1 else (year : Int) + era * 400, month,
        day - (153 * shifted + 2) / 5 + 1⟩ := by
  obtain ⟨dayOfEra, hday⟩ : ∃ day, ((days + 719468) % 146097).toNat = day := ⟨_, rfl⟩
  have hera : dayOfEra < 146097 := by omega
  obtain ⟨year, hyear, hquotient, hstart, hend⟩ := exists_year_of_lt hera
  refine ⟨(days + 719468) / 146097, year, dayOfEra - yearStart year, hyear, ?_, ?_, ?_, ?_⟩
  · have hlength := yearStart_succ_le year
    omega
  · omega
  · intro hlast
    exact isLeap_of_long (by omega) _
  · have hyearDays : 365 * year + year / 4 - year / 100 = yearStart year := by
      unfold yearStart
      omega
    unfold withoutLeapDays at hquotient
    simp only [Date.ofDays, hday, hquotient, hyearDays]

/-- Counting the days up to the day with a given count gives that count. -/
theorem toDays_ofDays (days : Int) : (Date.ofDays days).toDays = days := by
  obtain ⟨era, year, day, hyear, hday, hdays, -, hdate⟩ := exists_ofDays days
  obtain ⟨hmonth, -, -, hfirst, hofMonth, -⟩ := month_of_day day hday
  rw [hdate]
  simp only [Date.toDays, hmonth]
  have hyearOf : ∀ month : Nat,
      (if month ≤ 2 then (if month ≤ 2 then (year : Int) + era * 400 + 1 else year + era * 400) - 1
        else (if month ≤ 2 then (year : Int) + era * 400 + 1 else year + era * 400)) =
      year + era * 400 := by
    intro month
    split <;> omega
  rw [hyearOf]
  have hera : ((year : Int) + era * 400) / 400 = era := by omega
  have hyearOfEra : ((year : Int) + era * 400) % 400 = year := by omega
  rw [hera, hyearOfEra]
  unfold yearStart at hdays
  omega

/-- The day with a given count exists in its month. -/
theorem ofDays_exists (days : Int) :
    let date := Date.ofDays days
    1 ≤ date.month ∧ date.month ≤ 12 ∧ 1 ≤ date.day ∧
      date.day ≤ daysInMonth date.year date.month := by
  obtain ⟨era, year, day, -, hday, -, hleap, hdate⟩ := exists_ofDays days
  obtain ⟨-, hlow, hhigh, hfirst, -, hlast⟩ := month_of_day day hday
  rw [hdate]
  refine ⟨hlow, hhigh, hfirst, Nat.le_trans hlast ?_⟩
  simp only [daysInMonth]
  generalize (if (5 * day + 2) / 153 < 10 then (5 * day + 2) / 153 + 3
    else (5 * day + 2) / 153 - 9) = month
  split
  · rename_i hfebruary
    rw [hfebruary, if_pos (Nat.le_refl 2)]
    split
    · rename_i hend
      simp [hleap hend]
    · split <;> omega
  · exact Nat.le_refl _

end LogRelay.Timestamp
