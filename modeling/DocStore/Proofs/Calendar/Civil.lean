import Mathlib.Tactic.IntervalCases
import DocStore.Calendar.Civil

/-!
# Days and dates

Every day has a date, whose numbers are in range (`ofNumbers?_ofDays`) and which leads back to the
day (`toDays_ofDays`). As in the conversions the years of an era of 400 years begin in March, so a
leap day is the last day of its year.
-/

set_option autoImplicit false

namespace DocStore.CivilDate

/-! ## Years of an era -/

/-- The days of an era before one of its years. -/
def yearStart (y : Int) : Int := 365 * y + y / 4 - y / 100

/-- The number of a day of an era, the leap days before it not counted. -/
def commonDays (d : Int) : Int := d - d / 1460 + d / 36524 - d / 146096

theorem commonDays_mono {d e : Int} (h0 : 0 ≤ d) (h : d ≤ e) (he : e < 146097) :
    commonDays d ≤ commonDays e := by
  unfold commonDays
  have hquad : e / 1460 - d / 1460 ≤ e - d := by omega
  have hcentury : d / 36524 ≤ e / 36524 := by omega
  by_cases hera : d / 146096 = e / 146096
  · omega
  · -- The last day of the era is in a century of its own, unlike all days before it.
    obtain rfl : e = 146096 := by omega
    have hlow : 0 ≤ d / 36524 := by omega
    have hhigh : d / 36524 ≤ 3 := by omega
    omega

theorem commonDays_yearStart {y : Int} (h0 : 0 ≤ y) (h1 : y ≤ 399) :
    commonDays (yearStart y) = 365 * y := by
  unfold commonDays yearStart
  have hquad : (365 * y + y / 4 - y / 100) / 1460 = y / 4 := by omega
  have hcentury : (365 * y + y / 4 - y / 100) / 36524 = y / 100 := by omega
  have hera : (365 * y + y / 4 - y / 100) / 146096 = 0 := by omega
  omega

theorem commonDays_pred_yearStart {y : Int} (h0 : 1 ≤ y) (h1 : y ≤ 399) :
    commonDays (yearStart y - 1) < 365 * y := by
  unfold commonDays yearStart
  have hquad : (365 * y + y / 4 - y / 100 - 1) / 1460 = y / 4 := by omega
  have hcentury : (365 * y + y / 4 - y / 100 - 1) / 36524 ≤ y / 100 := by omega
  have hera : (365 * y + y / 4 - y / 100 - 1) / 146096 = 0 := by omega
  omega

theorem yearStart_succ (y : Int) : yearStart (y + 1) =
    yearStart y + (if (y + 1) % 4 = 0 ∧ (y + 1) % 100 ≠ 0 then 366 else 365) := by
  unfold yearStart
  split <;> omega

/-- **The year of a day.** A day lies in the year that its number without leap days gives, and is
its 366th day in leap years only. -/
theorem yearStart_le {d y : Int} (h0 : 0 ≤ d) (h1 : d < 146097) (hy : y = commonDays d / 365) :
    0 ≤ y ∧ y ≤ 399 ∧ yearStart y ≤ d ∧ d ≤ yearStart y + 365 ∧
      (d = yearStart y + 365 → isLeapYear (y + 1) = true) := by
  have hlow : 0 ≤ commonDays d := commonDays_mono (Int.le_refl 0) h0 h1
  have hhigh : commonDays d ≤ 145999 := calc
    commonDays d ≤ commonDays 146096 := commonDays_mono h0 (by omega) (by decide)
    _ = 145999 := by decide
  have hfirst : yearStart y ≤ d := by
    by_contra hlt
    have hpred : commonDays d ≤ commonDays (yearStart y - 1) := by
      refine commonDays_mono h0 (by omega) ?_
      unfold yearStart
      omega
    have := commonDays_pred_yearStart (y := y) (by unfold yearStart at hlt; omega) (by omega)
    omega
  have hlast : y < 399 → d < yearStart (y + 1) := by
    intro hlt
    by_contra hle
    have hnext : commonDays (yearStart (y + 1)) ≤ commonDays d :=
      commonDays_mono (by unfold yearStart; omega) (by omega) h1
    rw [commonDays_yearStart (by omega) (by omega)] at hnext
    omega
  by_cases hlt : y < 399
  · have hnext := hlast hlt
    rw [yearStart_succ] at hnext
    refine ⟨by omega, by omega, hfirst, by omega, fun hd => ?_⟩
    simp only [isLeapYear, Bool.and_eq_true, Bool.or_eq_true, beq_iff_eq, bne_iff_ne]
    omega
  · obtain rfl : y = 399 := by omega
    exact ⟨by omega, by omega, hfirst, by unfold yearStart; omega, fun _ => by decide⟩

theorem isLeapYear_add_era (y era : Int) : isLeapYear (y + era * 400) = isLeapYear y := by
  have h4 : (y + era * 400) % 4 = y % 4 := by omega
  have h100 : (y + era * 400) % 100 = y % 100 := by omega
  have h400 : (y + era * 400) % 400 = y % 400 := by omega
  simp only [isLeapYear, h4, h100, h400]

/-! ## Months of a year -/

/-- The month of a day of a year, from 0 for March. -/
def fromMarch (d : Int) : Int := (5 * d + 2) / 153

theorem fromMarch_bounds {d : Int} (h0 : 0 ≤ d) (h1 : d ≤ 365) :
    0 ≤ fromMarch d ∧ fromMarch d ≤ 11 ∧ (153 * fromMarch d + 2) / 5 ≤ d := by
  unfold fromMarch
  omega

theorem day_le_daysInMonth {year d : Int} (h0 : 0 ≤ d) (h1 : d ≤ 365)
    (hleap : d = 365 → isLeapYear year = true) :
    d - (153 * fromMarch d + 2) / 5 + 1 ≤
      daysInMonth year (if fromMarch d < 10 then fromMarch d + 3 else fromMarch d - 9).toNat := by
  obtain ⟨hm0, hm1, -⟩ := fromMarch_bounds h0 h1
  have hnext : 5 * d + 2 < 153 * (fromMarch d + 1) := by
    unfold fromMarch
    omega
  generalize fromMarch d = m at *
  interval_cases m
  case «11» =>
    -- February, which ends the year.
    have hfebruary : daysInMonth year 2 = if isLeapYear year then 29 else 28 := rfl
    change d - (153 * 11 + 2) / 5 + 1 ≤ (daysInMonth year 2 : Int)
    rw [hfebruary]
    by_cases hd : d = 365
    · rw [if_pos (hleap hd)]
      omega
    · split <;> omega
  all_goals
    simp [daysInMonth]
    omega

/-! ## Dates -/

/-- **The date of a day** by the era, the year of the era and the day of the year. -/
theorem exists_ofDays (n : Int) : ∃ era y d : Int, 0 ≤ y ∧ y ≤ 399 ∧ 0 ≤ d ∧ d ≤ 365 ∧
    (d = 365 → isLeapYear (y + 1) = true) ∧
    n = era * 146097 + (yearStart y + d) - 719468 ∧
    ofDays n = {
      year := y + era * 400 + (if fromMarch d < 10 then 0 else 1)
      month := (if fromMarch d < 10 then fromMarch d + 3 else fromMarch d - 9).toNat
      day := (d - (153 * fromMarch d + 2) / 5 + 1).toNat } := by
  obtain ⟨z, hz⟩ : ∃ z, z = (n + 719468) % 146097 := ⟨_, rfl⟩
  obtain ⟨y, hy⟩ : ∃ y, y = commonDays z / 365 := ⟨_, rfl⟩
  obtain ⟨d, hd⟩ : ∃ d, d = z - yearStart y := ⟨_, rfl⟩
  obtain ⟨hy0, hy1, hfirst, hlast, hleap⟩ := yearStart_le (by omega) (by omega) hy
  obtain ⟨hm0, hm1, -⟩ := fromMarch_bounds (d := d) (by omega) (by omega)
  have hofDays : ofDays n = {
      year := y + (n + 719468) / 146097 * 400 +
        (if (if fromMarch d < 10 then fromMarch d + 3 else fromMarch d - 9) ≤ 2 then 1 else 0)
      month := (if fromMarch d < 10 then fromMarch d + 3 else fromMarch d - 9).toNat
      day := (d - (153 * fromMarch d + 2) / 5 + 1).toNat } := by
    rw [hd, hy, hz]
    rfl
  refine ⟨(n + 719468) / 146097, y, d, hy0, hy1, by omega, by omega, fun h => hleap (by omega),
    by omega, ?_⟩
  rw [hofDays]
  by_cases h : fromMarch d < 10
  · have hmonth : ¬ fromMarch d + 3 ≤ 2 := by omega
    simp only [h, hmonth, if_true, if_false]
  · have hmonth : fromMarch d - 9 ≤ 2 := by omega
    simp only [h, hmonth, if_true, if_false]

/-- **The date of a day leads back to it.** -/
theorem toDays_ofDays (n : Int) : (ofDays n).toDays = n := by
  obtain ⟨era, y, d, hy0, hy1, hd0, hd1, -, rfl, h⟩ := exists_ofDays n
  obtain ⟨hm0, hm1, hday⟩ := fromMarch_bounds hd0 hd1
  rw [h, toDays]
  unfold yearStart
  by_cases hm : fromMarch d < 10
  · have hearly : ¬ (fromMarch d + 3).toNat ≤ 2 := by omega
    have hlate : (fromMarch d + 3).toNat > 2 := by omega
    simp only [hm, hearly, hlate, if_true, if_false]
    omega
  · have hearly : (fromMarch d - 9).toNat ≤ 2 := by omega
    have hlate : ¬ (fromMarch d - 9).toNat > 2 := by omega
    simp only [hm, hearly, hlate, if_true, if_false]
    omega

/-- **The date of a day is one**: its month and its day are in range. -/
theorem ofNumbers?_ofDays (n : Int) :
    ofNumbers? (ofDays n).year (ofDays n).month (ofDays n).day = some (ofDays n) := by
  obtain ⟨era, y, d, hy0, hy1, hd0, hd1, hleap, rfl, h⟩ := exists_ofDays n
  obtain ⟨hm0, hm1, hday⟩ := fromMarch_bounds hd0 hd1
  -- The 366th day is in February, in the year after the one that began in March.
  have hleapYear : d = 365 →
      isLeapYear (y + era * 400 + (if fromMarch d < 10 then 0 else 1)) = true := by
    rintro rfl
    rw [if_neg (by decide), Int.add_right_comm, isLeapYear_add_era]
    exact hleap rfl
  have hlength := day_le_daysInMonth hd0 hd1 hleapYear
  rw [h]
  refine if_pos ⟨?_, ?_, ?_, ?_⟩ <;> dsimp only
  · split <;> omega
  · split <;> omega
  · omega
  · omega

theorem daysInMonth_le (year : Int) (month : Nat) : daysInMonth year month ≤ 31 := by
  unfold daysInMonth
  split
  · split <;> decide
  · split <;> decide

/-- The months of dates and their days have two digits. -/
theorem month_day_lt (n : Int) : (ofDays n).month < 100 ∧ (ofDays n).day < 100 := by
  obtain ⟨⟨-, hmonth, -, hday⟩, -⟩ := Option.ite_none_right_eq_some.1 (ofNumbers?_ofDays n)
  have := daysInMonth_le (ofDays n).year (ofDays n).month
  omega

end DocStore.CivilDate
