import Muster.Time
import Mathlib.Tactic.ByContra

/-!
# The calendar

A day's number and its date determine each other. An era has 400 years and 146097 days; its years begin in
March, so that the day that a leap year has more is the last one.
-/

namespace Muster.Time

/-- The day of an era with which a year of it begins. -/
def yearStart (year : Int) : Int := 365 * year + year / 4 - year / 100

/-- The days up to a day of an era without those that only leap years have. -/
def commonDays (day : Int) : Int := day - day / 1460 + day / 36524 - day / 146096

theorem commonDays_mono {a b : Int} (h : a ≤ b) : commonDays a ≤ commonDays b := by
  have h₁ : a - a / 1460 ≤ b - b / 1460 := by omega
  have h₂ : a / 36524 - a / 146096 ≤ b / 36524 - b / 146096 := by omega
  simp only [commonDays]
  omega

/-- At the first day of each year the common days are at least those of the years before, and on the day
before they are fewer. -/
theorem commonDays_yearStart (year : Nat) (h : year < 400) :
    365 * (year : Int) ≤ commonDays (yearStart year) ∧
      (0 < year → commonDays (yearStart year - 1) < 365 * (year : Int)) := by
  have table : ∀ year : Fin 400, 365 * (year.val : Int) ≤ commonDays (yearStart year.val) ∧
      (0 < year.val → commonDays (yearStart year.val - 1) < 365 * (year.val : Int)) := by
    decide +kernel
  exact table ⟨year, h⟩

/-- The year of an era in which a day lies. -/
theorem yearStart_bounds (day : Int) (h₀ : 0 ≤ day) (h₁ : day ≤ 146096) :
    let year := commonDays day / 365
    0 ≤ year ∧ year ≤ 399 ∧ yearStart year ≤ day ∧ (year < 399 → day < yearStart (year + 1)) := by
  intro year
  have hlow : 0 ≤ commonDays day := by simp only [commonDays]; omega
  have hhigh : commonDays day < 146000 := by
    have := commonDays_mono h₁
    simp only [commonDays] at this ⊢
    omega
  have hy₀ : 0 ≤ year := by omega
  have hy₁ : year ≤ 399 := by omega
  refine ⟨hy₀, hy₁, ?_, ?_⟩
  · by_contra hlt
    have hpos : 0 < year := by
      by_contra hzero
      have : year = 0 := by omega
      simp only [this, yearStart] at hlt
      omega
    have htable := (commonDays_yearStart year.toNat (by omega)).2 (by omega)
    rw [Int.toNat_of_nonneg hy₀] at htable
    have hmono := commonDays_mono (show day ≤ yearStart year - 1 by omega)
    omega
  · intro hlast
    by_contra hge
    have htable := (commonDays_yearStart (year + 1).toNat (by omega)).1
    rw [Int.toNat_of_nonneg (by omega)] at htable
    have hmono := commonDays_mono (show yearStart (year + 1) ≤ day by omega)
    omega

theorem isLeapYear_add (year era : Int) : isLeapYear (year + era * 400) = isLeapYear year := by
  have h₁ : (year + era * 400) % 4 = year % 4 := by omega
  have h₂ : (year + era * 400) % 100 = year % 100 := by omega
  have h₃ : (year + era * 400) % 400 = year % 400 := by omega
  simp only [isLeapYear, h₁, h₂, h₃]

/-- The last day of a year is missing unless the year is a leap year. -/
theorem yearStart_add_one (year : Int) (h₀ : 0 ≤ year) (h₁ : year < 399) :
    yearStart (year + 1) = yearStart year + 365 + if isLeapYear (year + 1) then 1 else 0 := by
  simp only [yearStart, isLeapYear, Bool.and_eq_true, Bool.or_eq_true, decide_eq_true_eq, bne_iff_ne]
  split <;> omega

/-- The date that belongs to a day of a year, by the day of the year and the year in which the year that
begins in March began. -/
def dateIn (year dayOfYear : Int) : Int × Nat × Nat :=
  let shifted := (5 * dayOfYear + 2) / 153
  let month := if shifted < 10 then shifted + 3 else shifted - 9
  (year + (if month ≤ 2 then 1 else 0), month.toNat, (dayOfYear - (153 * shifted + 2) / 5 + 1).toNat)

/-- The date is one of the calendar, if the day is one of the year. -/
theorem dateIn_bounds (year dayOfYear : Int) (h₀ : 0 ≤ dayOfYear)
    (h₁ : dayOfYear < 365 + if isLeapYear (year + 1) then 1 else 0) :
    1 ≤ (dateIn year dayOfYear).2.1 ∧ (dateIn year dayOfYear).2.1 ≤ 12 ∧
      1 ≤ (dateIn year dayOfYear).2.2 ∧
      (dateIn year dayOfYear).2.2 ≤ daysIn (dateIn year dayOfYear).1 (dateIn year dayOfYear).2.1 := by
  have hshifted : (5 * dayOfYear + 2) / 153 ∈ [0, 1, 2, 3, 4, 5, 6, 7, 8, 9, 10, 11] := by
    simp only [List.mem_cons, List.not_mem_nil, or_false]
    split at h₁ <;> omega
  simp only [List.mem_cons, List.not_mem_nil, or_false] at hshifted
  rcases hshifted with h | h | h | h | h | h | h | h | h | h | h | h <;>
    simp only [dateIn, h] <;> simp [daysIn] <;> split at h₁ <;> simp_all <;> omega

/-- The day of an era is given by its date. -/
theorem dayNumber_dateIn (era year dayOfYear : Int) (hy₀ : 0 ≤ year) (hy₁ : year ≤ 399)
    (h₀ : 0 ≤ dayOfYear) (h₁ : dayOfYear ≤ 365) :
    dayNumber (dateIn (year + era * 400) dayOfYear).1 (dateIn (year + era * 400) dayOfYear).2.1
      (dateIn (year + era * 400) dayOfYear).2.2 =
      era * 146097 + yearStart year + dayOfYear - 719468 := by
  have hshifted : (5 * dayOfYear + 2) / 153 ∈ [0, 1, 2, 3, 4, 5, 6, 7, 8, 9, 10, 11] := by
    simp only [List.mem_cons, List.not_mem_nil, or_false]
    omega
  have hera : (year + era * 400) / 400 = era := by omega
  simp only [List.mem_cons, List.not_mem_nil, or_false] at hshifted
  rcases hshifted with h | h | h | h | h | h | h | h | h | h | h | h <;>
    simp only [dateIn, dayNumber, yearStart, h] <;> simp [hera] <;> omega

/-- A day as an era, a year of it, and a day of that year. -/
theorem dateOf_eq (days : Int) :
    ∃ era year dayOfYear : Int, 0 ≤ year ∧ year ≤ 399 ∧ 0 ≤ dayOfYear ∧
      dayOfYear < 365 + (if isLeapYear (year + era * 400 + 1) then 1 else 0) ∧
      days = era * 146097 + yearStart year + dayOfYear - 719468 ∧
      dateOf days = dateIn (year + era * 400) dayOfYear := by
  let era := (days + 719468) / 146097
  let day := days + 719468 - era * 146097
  have hd₀ : 0 ≤ day := by omega
  have hd₁ : day ≤ 146096 := by omega
  obtain ⟨hy₀, hy₁, hlow, hhigh⟩ := yearStart_bounds day hd₀ hd₁
  refine ⟨era, commonDays day / 365, day - yearStart (commonDays day / 365), hy₀, hy₁, by omega, ?_,
    by omega, ?_⟩
  · have hleap := isLeapYear_add (commonDays day / 365 + 1) era
    rw [show commonDays day / 365 + 1 + era * 400 = commonDays day / 365 + era * 400 + 1 by omega]
      at hleap
    rw [hleap]
    by_cases hlast : commonDays day / 365 < 399
    · have hnext := yearStart_add_one _ hy₀ hlast
      have := hhigh hlast
      omega
    · have hyear : commonDays day / 365 = 399 := by omega
      rw [hyear]
      have hleap : isLeapYear (399 + 1) = true := by decide
      simp only [yearStart, hleap, if_true]
      omega
  · rfl

/-- The date of a day is one of the calendar. -/
theorem dateOf_bounds (days : Int) :
    1 ≤ (dateOf days).2.1 ∧ (dateOf days).2.1 ≤ 12 ∧ 1 ≤ (dateOf days).2.2 ∧
      (dateOf days).2.2 ≤ daysIn (dateOf days).1 (dateOf days).2.1 := by
  obtain ⟨era, year, dayOfYear, -, -, h₀, h₁, -, hdate⟩ := dateOf_eq days
  rw [hdate]
  exact dateIn_bounds _ _ h₀ h₁

/-- The number of a day's date is the number of the day. -/
theorem dayNumber_dateOf (days : Int) :
    dayNumber (dateOf days).1 (dateOf days).2.1 (dateOf days).2.2 = days := by
  obtain ⟨era, year, dayOfYear, hy₀, hy₁, h₀, h₁, hdays, hdate⟩ := dateOf_eq days
  rw [hdate, dayNumber_dateIn era year dayOfYear hy₀ hy₁ h₀ (by split at h₁ <;> omega), ← hdays]

end Muster.Time
