import Mathlib.Tactic.IntervalCases
import SlurmLink.Time.Calendar

/-!
Days and dates. A year is taken to start in March, and 400 of them are an era, so a day is told by its era,
its year in the era and its day in the year:

    day ──▶ era, day of the era ──yearOf──▶ year, day of the year ──marchDate──▶ month, day

The year that a day falls in is computed without a search; that it is the right one needs to be checked
for the first and the last day of each year only, since a later day falls in no earlier year (`yearOf_mono`).
-/

namespace SlurmLink.Calendar

/-! ### Years of an era -/

/-- The days of an era before one of its years. -/
def daysBefore (year : Int) : Int := 365 * year + year / 4 - year / 100 + year / 400

/-- The year that a day of an era falls in. -/
def yearOf (day : Int) : Int := (day - day / 1460 + day / 36524 - day / 146096) / 365

/-- The days of the year before a day of an era. -/
def dayOfYear (day : Int) : Int := day - (365 * yearOf day + yearOf day / 4 - yearOf day / 100)

theorem yearOf_mono {a b : Int} (h : a ≤ b) : yearOf a ≤ yearOf b := by
  have hdays : a - a / 1460 ≤ b - b / 1460 := by omega
  have hcenturies : a / 36524 - a / 146096 ≤ b / 36524 - b / 146096 := by omega
  simp only [yearOf]
  omega

theorem yearOf_ends : ∀ year : Fin 400,
    yearOf (daysBefore year) = year ∧ yearOf (daysBefore (year + 1) - 1) = year := by
  decide +kernel

theorem yearOf_first {year : Int} (h0 : 0 ≤ year) (h1 : year < 400) :
    yearOf (daysBefore year) = year ∧ yearOf (daysBefore (year + 1) - 1) = year := by
  have h := yearOf_ends ⟨year.toNat, by omega⟩
  simpa only [Int.toNat_of_nonneg h0] using h

/-- The year of a day begins on this day or before, and the next year begins after it. -/
theorem yearOf_spec {day : Int} (h0 : 0 ≤ day) (h1 : day < 146097) :
    (0 ≤ yearOf day ∧ yearOf day < 400) ∧
      daysBefore (yearOf day) ≤ day ∧ day < daysBefore (yearOf day + 1) := by
  have hlow : yearOf 0 ≤ yearOf day := yearOf_mono h0
  have hhigh : yearOf day ≤ yearOf 146096 := yearOf_mono (by omega)
  have hfirst : yearOf 0 = 0 := rfl
  have hlast : yearOf 146096 = 399 := rfl
  refine ⟨by omega, ?_, ?_⟩
  · by_contra hlt
    have hpos : 0 < yearOf day := by
      by_contra hzero
      rw [show yearOf day = 0 by omega] at hlt
      exact hlt h0
    have hprev := (yearOf_first (show 0 ≤ yearOf day - 1 by omega) (by omega)).2
    rw [Int.sub_add_cancel] at hprev
    have := yearOf_mono (show day ≤ daysBefore (yearOf day) - 1 by omega)
    omega
  · by_contra hge
    by_cases hend : yearOf day = 399
    · rw [hend] at hge
      exact hge h1
    · have hnext := (yearOf_first (show 0 ≤ yearOf day + 1 by omega) (by omega)).1
      have := yearOf_mono (show daysBefore (yearOf day + 1) ≤ day by omega)
      omega

/-! ### Days of a year -/

/-- The date of a day in a month of a year that starts in March; the days of the year and the months are
    counted from zero. -/
def marchDate (year month day : Int) : Date :=
  let m := if month < 10 then month + 3 else month - 9
  ⟨if m ≤ 2 then year + 1 else year, m.toNat, (day - (153 * month + 2) / 5 + 1).toNat⟩

/-- A day of the year falls in a month. -/
structure FallsIn (day month : Int) : Prop where
  nonneg : 0 ≤ day
  le_last : day ≤ 365
  eq : (5 * day + 2) / 153 = month

theorem FallsIn.bounds {day month : Int} (h : FallsIn day month) :
    0 ≤ month ∧ month ≤ 11 ∧ (153 * month + 2) / 5 ≤ day := by
  obtain ⟨h0, h1, rfl⟩ := h
  omega

theorem dayNumber_marchDate {year month day : Int} (h : FallsIn day month) :
    dayNumber (marchDate year month day) =
      year / 400 * 146097 + daysBefore (year % 400) + day - 719468 := by
  obtain ⟨hm0, hm1, hday⟩ := h.bounds
  simp only [dayNumber, marchDate, daysBefore]
  by_cases hearly : month < 10
  · have hm : ¬ month + 3 ≤ 2 := by omega
    have hm' : ¬ (month + 3).toNat ≤ 2 := by omega
    simp only [if_pos hearly, if_neg hm, if_neg hm']
    omega
  · have hm : month - 9 ≤ 2 := by omega
    have hm' : (month - 9).toNat ≤ 2 := by omega
    simp only [if_neg hearly, if_pos hm, if_pos hm']
    omega

theorem isDate_marchDate {year month day : Int} (h : FallsIn day month)
    (hleap : day = 365 → isLeap (year + 1) = true) : isDate (marchDate year month day) = true := by
  obtain ⟨hm0, hm1, hday⟩ := h.bounds
  obtain ⟨h0, h1, hmonth⟩ := h
  -- Only the last month has a length that depends on the year.
  by_cases hlast : month = 11
  · subst hlast
    have hlength : (day - 337 + 1).toNat ≤ monthLength (year + 1) 2 := by
      rw [monthLength, if_pos rfl]
      split
      · omega
      · next hshort =>
        have : day ≠ 365 := fun hd => hshort (hleap hd)
        omega
    have hfirst : 1 ≤ (day - 337 + 1).toNat := by omega
    simpa [isDate, marchDate, hlength] using hfirst
  · have hm : month ≤ 10 := by omega
    interval_cases month <;> simp [isDate, marchDate, monthLength] <;> omega

theorem daysBefore_succ_le (year : Int) : daysBefore (year + 1) ≤ daysBefore year + 366 := by
  have hera : year / 400 = year / 100 / 4 := by omega
  have hnext : (year + 1) / 400 = (year + 1) / 100 / 4 := by omega
  have hcentury : (year + 1) / 100 = year / 100 ∨ (year + 1) / 100 = year / 100 + 1 := by omega
  simp only [daysBefore, hera, hnext]
  rcases hcentury with hsame | hnew
  · rw [hsame]
    omega
  · rw [hnew]
    omega

/-- The last year of four has a day more, but of the centuries only the last of an era. -/
theorem isLeap_iff {year : Int} (h0 : 0 ≤ year) (h1 : year < 400) (era : Int) :
    isLeap (year + era * 400 + 1) = true ↔ daysBefore (year + 1) = daysBefore year + 366 := by
  simp only [isLeap, Bool.and_eq_true, Bool.or_eq_true, beq_iff_eq, bne_iff_ne, daysBefore]
  omega

theorem dayOfYear_eq {day : Int} (h0 : 0 ≤ day) (h1 : day < 146097) :
    dayOfYear day = day - daysBefore (yearOf day) := by
  obtain ⟨⟨hy0, hy1⟩, -⟩ := yearOf_spec h0 h1
  rw [dayOfYear, daysBefore, Int.ediv_eq_zero_of_lt hy0 hy1, Int.add_zero]

/-- The date of a day is that of its year, month and day of the year, as they are counted from March. -/
theorem exists_dateOf (days : Int) : ∃ year month day : Int,
    dateOf days = marchDate year month day ∧ FallsIn day month ∧
      (day = 365 → isLeap (year + 1) = true) ∧
      year / 400 * 146097 + daysBefore (year % 400) + day - 719468 = days := by
  have h0 : 0 ≤ (days + 719468) % 146097 := Int.emod_nonneg _ (by decide)
  have h1 : (days + 719468) % 146097 < 146097 := Int.emod_lt_of_pos _ (by decide)
  have hsplit := Int.emod_add_mul_ediv (days + 719468) 146097
  have hsame : dateOf days = marchDate
      (yearOf ((days + 719468) % 146097) + (days + 719468) / 146097 * 400)
      ((5 * dayOfYear ((days + 719468) % 146097) + 2) / 153)
      (dayOfYear ((days + 719468) % 146097)) := rfl
  obtain ⟨⟨hy0, hy1⟩, hle, hlt⟩ := yearOf_spec h0 h1
  have hlong := daysBefore_succ_le (yearOf ((days + 719468) % 146097))
  have hday := dayOfYear_eq h0 h1
  refine ⟨_, _, _, hsame, ⟨by omega, by omega, rfl⟩, fun hlast => ?_, ?_⟩
  · rw [isLeap_iff hy0 hy1]
    omega
  · rw [Int.add_mul_ediv_right _ _ (by decide), Int.add_mul_emod_self_right,
      Int.ediv_eq_zero_of_lt hy0 hy1, Int.emod_eq_of_lt hy0 hy1]
    omega

/-- The date of a day exists. -/
theorem isDate_dateOf (days : Int) : isDate (dateOf days) = true := by
  obtain ⟨year, month, day, heq, hin, hleap, -⟩ := exists_dateOf days
  rw [heq]
  exact isDate_marchDate hin hleap

/-- The date of a day is that day's. -/
theorem dayNumber_dateOf (days : Int) : dayNumber (dateOf days) = days := by
  obtain ⟨year, month, day, heq, hin, -, hdays⟩ := exists_dateOf days
  rw [heq, dayNumber_marchDate hin, hdays]

end SlurmLink.Calendar
