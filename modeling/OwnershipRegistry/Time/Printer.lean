import OwnershipRegistry.Text.Hex
import OwnershipRegistry.Time.Instant

/-!
The written form of instants. Years from 0 to 9999 have four digits, others a
sign; the fraction has three, six or nine digits, as few as hold it, and none
if it is zero; a leap second is written as second 60. The offset of universal
time is `Z` or `+00:00`.
-/

namespace OwnershipRegistry

/-- The digits of a year. -/
def yearText (year : Int) : List Char :=
  if 0 ≤ year ∧ year ≤ 9999 then padded 4 year.toNat
  else (if year < 0 then '-' else '+') :: padded 4 year.natAbs

/-- The digits of a fraction of a second, after a point. -/
def fractionText (nano : Nat) : List Char :=
  if nano = 0 then []
  else if nano % 10 ^ 6 = 0 then '.' :: padded 3 (nano / 10 ^ 6)
  else if nano % 10 ^ 3 = 0 then '.' :: padded 6 (nano / 10 ^ 3)
  else '.' :: padded 9 nano

def Date.text (d : Date) : List Char :=
  yearText d.year ++ '-' :: padded 2 d.month ++ '-' :: padded 2 d.day

namespace Instant

/-- The second as written: 60 in a leap second. -/
def shownSecond (i : Instant) : Nat :=
  i.second % 60 + i.nano / 10 ^ 9

/-- The date and the time of day without an offset. -/
def clockText (i : Instant) : List Char :=
  (Date.ofDayNumber i.day).text ++ 'T' :: padded 2 (i.second / 3600) ++
    ':' :: padded 2 (i.second / 60 % 60) ++ ':' :: padded 2 i.shownSecond ++
    fractionText (i.nano % 10 ^ 9)

/-- The form with the offset `Z`, as in records. -/
def zuluText (i : Instant) : String := String.ofList (i.clockText ++ ['Z'])

/-- The form with the offset `+00:00`, as in the file. -/
def offsetText (i : Instant) : String := String.ofList (i.clockText ++ "+00:00".toList)

end Instant

end OwnershipRegistry
