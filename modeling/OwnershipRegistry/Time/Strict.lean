import OwnershipRegistry.Text.Utf8
import OwnershipRegistry.Time.Scan

/-!
The strict form of instants, in which the file keeps them: a year of four
digits, all other numbers of two, a date and a time of day with a separator
between them, and an offset with a colon. Nineteen octets are the least that a
date and a time of day take. A date is judged before what follows it, and a time
of day before its offset.
-/

namespace OwnershipRegistry.Strict

open Scan

/-- A digit, where the form asks for one. -/
def digit : List Char → Except Refusal (Char × List Char)
  | c :: rest => if c.isDigit then .ok (c, rest) else .error .malformed
  | [] => .error .malformed

/-- A mark, where the form asks for one. -/
def fixedMark (p : Char → Bool) : List Char → Except Refusal (List Char)
  | c :: rest => if p c then .ok rest else .error .malformed
  | [] => .error .malformed

/-- A number of two digits, where the form asks for one. -/
def pair (cs : List Char) : Except Refusal (Nat × List Char) := do
  let (a, cs) ← digit cs
  let (b, cs) ← digit cs
  return (ofDigits [a, b], cs)

def date (cs : List Char) : Except Refusal (Date × List Char) := do
  let (century, cs) ← pair cs
  let (year, cs) ← pair cs
  let cs ← fixedMark (· == '-') cs
  let (month, cs) ← pair cs
  let cs ← fixedMark (· == '-') cs
  let (day, cs) ← pair cs
  let date : Date := ⟨((100 * century + year : Nat) : Int), month, day⟩
  if date.isValid then return (date, cs) else throw .outOfRange

/-- The second of the day and its nanoseconds. -/
def timeOfDay (cs : List Char) : Except Refusal ((Nat × Nat) × List Char) := do
  let (hour, cs) ← pair cs
  let cs ← fixedMark (· == ':') cs
  let (minute, cs) ← pair cs
  let cs ← fixedMark (· == ':') cs
  let (second, cs) ← pair cs
  let (nano, cs) ← optionalFraction cs
  let (second, leapNano) := leapSecond second
  if hour < 24 ∧ minute < 60 ∧ second < 60 then
    return ((3600 * hour + 60 * minute + second, leapNano + nano), cs)
  else throw .outOfRange

end Strict

/-- The instant that a text in the strict form stands for. -/
def Instant.ofStrictText (s : String) : Except Refusal Instant := do
  if (octets s).length < 19 then throw .cutShort
  let (date, cs) ← Strict.date s.toList
  let cs ← Strict.fixedMark Scan.isSeparator cs
  let ((second, nano), cs) ← Strict.timeOfDay cs
  let (ahead, cs) ← Scan.offset (Scan.mark ':') cs
  unless cs.isEmpty do throw .trailing
  unless ahead.natAbs < 1440 do throw .outOfRange
  match Instant.ofClock? date second nano ahead with
  | some i => return i
  | none => throw .impossible

end OwnershipRegistry
