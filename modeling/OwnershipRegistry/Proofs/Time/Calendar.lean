import Mathlib.Tactic.IntervalCases
import OwnershipRegistry.Time.Calendar

/-!
Every day has a date that the calendar has. A year that begins in March has its
366th day only if February, with which it ends, is in a leap year.
-/

namespace OwnershipRegistry.Date

theorem isLeapYear_iff {year : Int} :
    isLeapYear year = true ↔ year % 4 = 0 ∧ (year % 100 ≠ 0 ∨ year % 400 = 0) := by
  simp [isLeapYear]

theorem isValid_iff {d : Date} :
    d.isValid = true ↔
      1 ≤ d.month ∧ d.month ≤ 12 ∧ 1 ≤ d.day ∧ d.day ≤ daysInMonth d.year d.month := by
  simp [isValid, and_assoc]

theorem daysInMonth_le (year : Int) (month : Nat) : daysInMonth year month ≤ 31 := by
  unfold daysInMonth
  split
  · split <;> decide
  · decide
  · decide
  · decide
  · decide
  · exact le_refl 31

/-- The days of the months from March to January, counted from March as 0. -/
theorem daysInMonth_of_lt {m : Nat} (h : m < 11) (year : Int) :
    daysBeforeMonth (m + 1) = daysBeforeMonth m +
      daysInMonth year (if m < 10 then m + 3 else m - 9) := by
  interval_cases m <;> rfl

theorem isValid_ofDayOfYear {year : Int} {day : Nat} (h : day ≤ 365)
    (hleap : day = 365 → isLeapYear (year + 1) = true) : (ofDayOfYear year day).isValid = true := by
  rw [isValid_iff]
  simp only [ofDayOfYear]
  generalize hm : (5 * day + 2) / 153 = m
  have hfirst : daysBeforeMonth m ≤ day := by
    rw [daysBeforeMonth]
    omega
  have hnext : day < daysBeforeMonth (m + 1) := by
    rw [daysBeforeMonth]
    omega
  have hmonth : m ≤ 11 := by omega
  refine ⟨by split <;> omega, by split <;> omega, by omega, ?_⟩
  by_cases hlast : m < 11
  · rw [daysInMonth_of_lt hlast (if m < 10 then year else year + 1)] at hnext
    omega
  · obtain rfl : m = 11 := by omega
    show day - 337 + 1 ≤ if isLeapYear (year + 1) then 29 else 28
    split
    · omega
    · rename_i hno
      have hday : day ≠ 365 := fun hlong => hno (hleap hlong)
      omega

/-- The calendar has the date of every day. -/
theorem isValid_ofDayNumber (n : Int) : (ofDayNumber n).isValid = true := by
  simp only [ofDayNumber]
  generalize hc : min (((n + epochShift) % 146097).toNat / 36524) 3 = century
  generalize hd : ((n + epochShift) % 146097).toNat - 36524 * century = inCentury
  generalize hy : min (inCentury % 1461 / 365) 3 = year
  have hshort : inCentury ≤ 36524 := by omega
  have hcentury : century ≤ 3 := by omega
  refine isValid_ofDayOfYear (by omega) fun hlong => ?_
  -- the 366th day is the last one of four years, and of a century only in the fourth
  have hyear : year = 3 := by omega
  have hfour : inCentury / 1461 ≤ 24 := by omega
  have hfull : inCentury / 1461 = 24 → century = 3 := by omega
  rw [isLeapYear_iff]
  generalize (n + epochShift) / 146097 = cycle at *
  generalize inCentury / 1461 = four at *
  omega

end OwnershipRegistry.Date
