/-!
The Gregorian calendar, extended over all years. Days are numbered from
1 January 1970; years are counted from March, so that a leap day ends its year.
Main statement: the date of a day number has that day number.
-/

namespace OwnershipRegistry

/-- A year, a month from 1 and a day of the month from 1. -/
structure Date where
  year : Int
  month : Nat
  day : Nat
  deriving DecidableEq, Repr, Inhabited

namespace Date

def isLeapYear (year : Int) : Bool :=
  year % 4 == 0 && (year % 100 != 0 || year % 400 == 0)

def daysInMonth (year : Int) : Nat → Nat
  | 2 => if isLeapYear year then 29 else 28
  | 4 | 6 | 9 | 11 => 30
  | _ => 31

def isValid (d : Date) : Bool :=
  1 ≤ d.month && d.month ≤ 12 && 1 ≤ d.day && d.day ≤ daysInMonth d.year d.month

/-- The days from 1 March of year 0 to 1 January 1970. -/
def epochShift : Int := 719468

/-- The days from 1 March to the first of a month, counted from March as 0. -/
def daysBeforeMonth (m : Nat) : Nat := (153 * m + 2) / 5

/-- The number of days from 1 January 1970 to a date. -/
def dayNumber (d : Date) : Int :=
  let year := if d.month ≤ 2 then d.year - 1 else d.year
  let month := if d.month ≤ 2 then d.month + 9 else d.month - 3
  365 * year + year / 4 - year / 100 + year / 400 + daysBeforeMonth month + d.day - 1 -
    epochShift

/-- The date of a day of a year that begins on 1 March. -/
def ofDayOfYear (year : Int) (day : Nat) : Date :=
  let month := (5 * day + 2) / 153
  ⟨if month < 10 then year else year + 1, if month < 10 then month + 3 else month - 9,
    day - daysBeforeMonth month + 1⟩

/-- The date that is a number of days after 1 January 1970. -/
def ofDayNumber (n : Int) : Date :=
  let shifted := n + epochShift
  let inCycle := (shifted % 146097).toNat
  let century := min (inCycle / 36524) 3
  let inCentury := inCycle - 36524 * century
  let inFour := inCentury % 1461
  let year := min (inFour / 365) 3
  ofDayOfYear
    (400 * (shifted / 146097) + 100 * century + 4 * (inCentury / 1461 : Nat) + year)
    (inFour - 365 * year)

/-- Within a year, a day is found again from its month and its day. -/
theorem dayNumber_ofDayOfYear (year : Int) {day : Nat} (h : day ≤ 365) :
    (ofDayOfYear year day).dayNumber =
      365 * year + year / 4 - year / 100 + year / 400 + day - epochShift := by
  have hm : (5 * day + 2) / 153 ≤ 11 := by omega
  simp only [ofDayOfYear, dayNumber, daysBeforeMonth]
  split <;> split <;> omega

theorem dayNumber_ofDayNumber (n : Int) : (ofDayNumber n).dayNumber = n := by
  simp only [ofDayNumber]
  generalize hc : min (((n + epochShift) % 146097).toNat / 36524) 3 = century
  generalize hd : ((n + epochShift) % 146097).toNat - 36524 * century = inCentury
  generalize hy : min (inCentury % 1461 / 365) 3 = year
  have hcentury : century ≤ 3 := by omega
  have hfour : inCentury / 1461 ≤ 24 := by omega
  have hyear : year ≤ 3 := by omega
  rw [dayNumber_ofDayOfYear _ (by omega)]
  generalize hk : (n + epochShift) / 146097 = cycle
  generalize hf : inCentury / 1461 = four at *
  have h4 : (400 * cycle + 100 * (century : Int) + 4 * (four : Nat) + year) / 4 =
      100 * cycle + 25 * century + four := by omega
  have h100 : (400 * cycle + 100 * (century : Int) + 4 * (four : Nat) + year) / 100 =
      4 * cycle + century := by omega
  have h400 : (400 * cycle + 100 * (century : Int) + 4 * (four : Nat) + year) / 400 =
      cycle := by omega
  rw [h4, h100, h400]
  omega

end Date

end OwnershipRegistry
