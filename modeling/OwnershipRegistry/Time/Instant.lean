import OwnershipRegistry.Text.Hex
import OwnershipRegistry.Time.Calendar

/-!
Instants of universal time to the nanosecond. A leap second is the second after
the last one of its minute: its nanoseconds count on from 10⁹ while the second
stays at 59. Instants lie between the years -262143 and 262142.
-/

namespace OwnershipRegistry

/-- A point of universal time. -/
structure Instant where
  /-- Days since 1 January 1970. -/
  day : Int
  /-- Seconds since midnight. -/
  second : Nat
  /-- Nanoseconds since the second began. -/
  nano : Nat
  first_le : (Date.mk (-262143) 1 1).dayNumber ≤ day
  le_last : day ≤ (Date.mk 262142 12 31).dayNumber
  second_lt : second < 86400
  nano_lt : nano < 2 * 10 ^ 9
  leap : 10 ^ 9 ≤ nano → second % 60 = 59
  deriving DecidableEq, Repr

namespace Instant

/-- The instant of a day, a second of the day and nanoseconds, if there is
one. -/
def ofParts? (day : Int) (second nano : Nat) : Option Instant :=
  if h : (Date.mk (-262143) 1 1).dayNumber ≤ day ∧ day ≤ (Date.mk 262142 12 31).dayNumber ∧
      second < 86400 ∧ nano < 2 * 10 ^ 9 ∧ (10 ^ 9 ≤ nano → second % 60 = 59) then
    some ⟨day, second, nano, h.1, h.2.1, h.2.2.1, h.2.2.2.1, h.2.2.2.2⟩
  else none

@[simp] theorem ofParts?_self (i : Instant) : ofParts? i.day i.second i.nano = some i := by
  rw [ofParts?, dif_pos ⟨i.first_le, i.le_last, i.second_lt, i.nano_lt, i.leap⟩]

/-- The beginning of 1970. -/
def epoch : Instant := ⟨0, 0, 0, by decide, by decide, by decide, by decide, by decide⟩

instance : Inhabited Instant := ⟨epoch⟩

/-- Seconds since the beginning of 1970, leap seconds not counted. -/
def unixSeconds (i : Instant) : Int := 86400 * i.day + i.second

/-- The instant at which a clock shows a date and a time of day, if the clock
is ahead of universal time by the given minutes. -/
def ofClock? (date : Date) (second nano : Nat) (ahead : Int) : Option Instant :=
  let shown := (second : Int) - 60 * ahead
  ofParts? (date.dayNumber + shown / 86400) (shown % 86400).toNat nano

end Instant

end OwnershipRegistry
