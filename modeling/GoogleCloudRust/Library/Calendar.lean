import Mathlib.Algebra.Order.Ring.Int
import Mathlib.Tactic.Common

/-! # The proleptic Gregorian calendar

Dates of days since 1970-01-01. Years are counted from March, so the leap day is the last one
of its year, and centuries, groups of four years and years all but the last have one length. -/

namespace GoogleCloudRust.Calendar

structure Date where
  year : ℤ
  month : ℕ
  day : ℕ
deriving DecidableEq, Repr

/-- A year that begins in March, and a day in it. -/
def ofShifted (shifted : ℤ) : ℤ × ℤ :=
  let ofEra := shifted % 146097
  let century := min (ofEra / 36524) 3
  let ofCentury := ofEra - 36524 * century
  let group := ofCentury / 1461
  let ofGroup := ofCentury - 1461 * group
  let year := min (ofGroup / 365) 3
  (400 * (shifted / 146097) + 100 * century + 4 * group + year, ofGroup - 365 * year)

/-- Days before a year that begins in March. -/
def daysBefore (year : ℤ) : ℤ := 365 * year + year / 4 - year / 100 + year / 400

def ofDays (days : ℤ) : Date :=
  let (year, ofYear) := ofShifted (days + 719468)
  let fromMarch := (5 * ofYear + 2) / 153
  let day := ofYear - (153 * fromMarch + 2) / 5 + 1
  if fromMarch < 10 then ⟨year, (fromMarch + 3).toNat, day.toNat⟩
  else ⟨year + 1, (fromMarch - 9).toNat, day.toNat⟩

def toDays (date : Date) : ℤ :=
  let (year, fromMarch) : ℤ × ℤ :=
    if 2 < date.month then (date.year, date.month - 3) else (date.year - 1, date.month + 9)
  daysBefore year + (153 * fromMarch + 2) / 5 + date.day - 1 - 719468

/-- Days before a year of a century, of a group of four, of a year in it. -/
theorem daysBefore_eq {era century group year : ℤ} (hcentury : 0 ≤ century ∧ century ≤ 3)
    (hgroup : 0 ≤ group ∧ group ≤ 24) (hyear : 0 ≤ year ∧ year ≤ 3) :
    daysBefore (400 * era + 100 * century + 4 * group + year) =
      146097 * era + 36524 * century + 1461 * group + 365 * year := by
  have hleap : (400 * era + 100 * century + 4 * group + year) / 4 =
      100 * era + 25 * century + group := by omega
  have hcommon : (400 * era + 100 * century + 4 * group + year) / 100 = 4 * era + century := by
    omega
  have hera : (400 * era + 100 * century + 4 * group + year) / 400 = era := by omega
  rw [daysBefore, hleap, hcommon, hera]
  omega

theorem ofShifted_spec (shifted : ℤ) :
    0 ≤ (ofShifted shifted).2 ∧ (ofShifted shifted).2 ≤ 365 ∧
      daysBefore (ofShifted shifted).1 + (ofShifted shifted).2 = shifted := by
  have hlower := Int.emod_nonneg shifted (show (146097 : ℤ) ≠ 0 by decide)
  have hupper := Int.emod_lt_of_pos shifted (show (0 : ℤ) < 146097 by decide)
  have hera := Int.mul_ediv_add_emod shifted 146097
  simp only [ofShifted]
  generalize shifted % 146097 = ofEra at *
  generalize shifted / 146097 = era at *
  have hcentury : 0 ≤ min (ofEra / 36524) 3 ∧ min (ofEra / 36524) 3 ≤ 3 := by omega
  have hofCentury : 0 ≤ ofEra - 36524 * min (ofEra / 36524) 3 ∧
      ofEra - 36524 * min (ofEra / 36524) 3 ≤ 36524 := by omega
  generalize min (ofEra / 36524) 3 = century at *
  generalize hof : ofEra - 36524 * century = ofCentury at *
  have hgroup : 0 ≤ ofCentury / 1461 ∧ ofCentury / 1461 ≤ 24 := by omega
  have hofGroup : 0 ≤ ofCentury - 1461 * (ofCentury / 1461) ∧
      ofCentury - 1461 * (ofCentury / 1461) ≤ 1460 := by omega
  generalize ofCentury / 1461 = group at *
  generalize hrest : ofCentury - 1461 * group = ofGroup at *
  have hyear : 0 ≤ min (ofGroup / 365) 3 ∧ min (ofGroup / 365) 3 ≤ 3 := by omega
  rw [daysBefore_eq hcentury hgroup hyear]
  omega

theorem toDays_ofDays (days : ℤ) : toDays (ofDays days) = days := by
  obtain ⟨hlower, hupper, hdays⟩ := ofShifted_spec (days + 719468)
  simp only [ofDays]
  generalize ofShifted (days + 719468) = shifted at *
  obtain ⟨year, ofYear⟩ := shifted
  dsimp only at *
  by_cases hmonth : (5 * ofYear + 2) / 153 < 10
  · have hlate : 2 < ((5 * ofYear + 2) / 153 + 3).toNat := by omega
    have hfromMarch : ((((5 * ofYear + 2) / 153 + 3).toNat : ℕ) : ℤ) - 3 =
        (5 * ofYear + 2) / 153 := by omega
    simp only [if_pos hmonth, toDays, if_pos hlate, hfromMarch]
    omega
  · have hearly : ¬ 2 < ((5 * ofYear + 2) / 153 - 9).toNat := by omega
    have hfromMarch : ((((5 * ofYear + 2) / 153 - 9).toNat : ℕ) : ℤ) + 9 =
        (5 * ofYear + 2) / 153 := by omega
    simp only [if_neg hmonth, toDays, if_neg hearly, hfromMarch, add_sub_cancel_right]
    omega

/-- Months and days have two digits. -/
theorem ofDays_lt (days : ℤ) : (ofDays days).month < 100 ∧ (ofDays days).day < 100 := by
  obtain ⟨hlower, hupper, -⟩ := ofShifted_spec (days + 719468)
  simp only [ofDays]
  split
  · dsimp only
    omega
  · dsimp only
    omega

/-- The years 1 to 9999. -/
theorem year_ofDays {days : ℤ} (hlower : -719162 ≤ days) (hupper : days ≤ 2932896) :
    1 ≤ (ofDays days).year ∧ (ofDays days).year ≤ 9999 := by
  obtain ⟨hfirst, hlast, hdays⟩ := ofShifted_spec (days + 719468)
  simp only [ofDays, daysBefore] at *
  split
  · dsimp only
    omega
  · dsimp only
    omega

example : ofDays (-1) = ⟨1969, 12, 31⟩ := by decide

end GoogleCloudRust.Calendar
