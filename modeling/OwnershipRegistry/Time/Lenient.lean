import OwnershipRegistry.Time.Scan

/-!
The lenient form of instants, in which records carry them: blanks before any
part, numbers of one digit or more, years with a sign, and the offset also as
`UTC` or without its colon. A number is judged as soon as it is read; whether
the calendar has the date is asked last.
-/

namespace OwnershipRegistry

/-- Whether a character is blank: a code point with the property `White_Space`. -/
def isBlank (c : Char) : Bool :=
  let n := c.toNat
  (9 ≤ n && n ≤ 13) || n == 0x20 || n == 0x85 || n == 0xa0 || n == 0x1680 ||
    (0x2000 ≤ n && n ≤ 0x200a) || n == 0x2028 || n == 0x2029 || n == 0x202f ||
    n == 0x205f || n == 0x3000

def skipBlanks (cs : List Char) : List Char := cs.dropWhile isBlank

namespace Lenient

open Scan

/-- A number with blanks before it, within bounds. -/
def numberWithin (low high : Nat) (cs : List Char) : Except Refusal (Nat × List Char) := do
  let (n, cs) ← number 2 (skipBlanks cs)
  if low ≤ n ∧ n ≤ high then return (n, cs) else throw .outOfRange

/-- A mark with blanks before it. -/
def spacedMark (m : Char) (cs : List Char) : Except Refusal (List Char) :=
  mark m (skipBlanks cs)

/-- A year: any number of digits after a sign, else at most four. Years take 32
bits. -/
def year (cs : List Char) : Except Refusal (Int × List Char) := do
  match skipBlanks cs with
  | '-' :: rest =>
    let (n, cs) ← number rest.length rest
    if n ≤ 2 ^ 31 then return (-(n : Int), cs) else throw .outOfRange
  | '+' :: rest =>
    let (n, cs) ← number rest.length rest
    if n < 2 ^ 31 then return ((n : Int), cs) else throw .outOfRange
  | cs =>
    let (n, cs) ← number 4 cs
    return ((n : Int), cs)

def date (cs : List Char) : Except Refusal (Date × List Char) := do
  let (year, cs) ← year cs
  let cs ← spacedMark '-' cs
  let (month, cs) ← numberWithin 1 12 cs
  let cs ← spacedMark '-' cs
  let (day, cs) ← numberWithin 1 31 cs
  return (⟨year, month, day⟩, cs)

/-- The second of the day and its nanoseconds. -/
def timeOfDay (cs : List Char) : Except Refusal ((Nat × Nat) × List Char) := do
  let (hour, cs) ← numberWithin 0 23 cs
  let cs ← spacedMark ':' cs
  let (minute, cs) ← numberWithin 0 59 cs
  let cs ← spacedMark ':' cs
  let (second, cs) ← numberWithin 0 60 cs
  let (nano, cs) ← optionalFraction cs
  let (second, leapNano) := leapSecond second
  return ((3600 * hour + 60 * minute + second, leapNano + nano), cs)

/-- The blanks and colons between the hours and the minutes of an offset. -/
def colons (cs : List Char) : Except Refusal (List Char) :=
  .ok (cs.dropWhile fun c => c == ':' || isBlank c)

/-- An offset, or `UTC` in any letter case. -/
def zone (cs : List Char) : Except Refusal (Int × List Char) :=
  if (cs.take 3).map Char.toUpper = ['U', 'T', 'C'] then .ok (0, cs.drop 3)
  else offset colons cs

end Lenient

/-- The instant that a text in the lenient form stands for. -/
def Instant.ofLenientText (s : String) : Except Refusal Instant := do
  let (date, cs) ← Lenient.date s.toList
  let cs ← match cs with
    | [] => throw .cutShort
    | c :: rest => if Scan.isSeparator c then pure rest else throw .malformed
  let ((second, nano), cs) ← Lenient.timeOfDay cs
  let (ahead, cs) ← Lenient.zone (skipBlanks cs)
  unless (skipBlanks cs).isEmpty do throw .trailing
  unless date.isValid do throw .outOfRange
  unless -262143 ≤ date.year ∧ date.year ≤ 262142 do throw .outOfRange
  unless ahead.natAbs < 1440 do throw .outOfRange
  match Instant.ofClock? date second nano ahead with
  | some i => return i
  | none => throw .impossible

end OwnershipRegistry
