import OwnershipRegistry.Time.Calendar
import OwnershipRegistry.Time.Scan
import OwnershipRegistry.Toml.Lexeme

/-!
Dates and times of TOML: a date, a time of day, or both with or without an
offset. They are only recognized; nobody asks what they are.
-/

namespace OwnershipRegistry.Toml

def fixedNumber (width : Nat) : Reader Nat := fun cs =>
  let (ds, rest) := Scan.takeDigits width cs
  if ds.length = width then some (ofDigits ds, rest) else none

def mark? (m : Char) : List Char → Option (List Char)
  | c :: rest => if c = m then some rest else none
  | [] => none

def date? (cs : List Char) : Option (List Char) := do
  let (year, cs) ← fixedNumber 4 cs
  let (month, cs) ← fixedNumber 2 (← mark? '-' cs)
  let (day, rest) ← fixedNumber 2 (← mark? '-' cs)
  if Date.isValid ⟨year, month, day⟩ then some rest else none

/-- Hours and minutes with a colon between them. -/
def hourMinute? (cs : List Char) : Option (List Char) := do
  let (hour, cs) ← fixedNumber 2 cs
  let (minute, rest) ← fixedNumber 2 (← mark? ':' cs)
  if hour < 24 ∧ minute < 60 then some rest else none

/-- The rest after a time of day; second 60 is one. -/
def time? (cs : List Char) : Option (List Char) := do
  let (second, rest) ← fixedNumber 2 (← mark? ':' (← hourMinute? cs))
  if second ≤ 60 then
    match rest with
    | '.' :: d :: ds => if d.isDigit then some (ds.dropWhile Char.isDigit) else some rest
    | _ => some rest
  else none

/-- The rest after an offset, if there is one. -/
def skipOffset? : List Char → Option (List Char)
  | c :: rest =>
    if c = 'Z' ∨ c = 'z' then some rest
    else if c = '+' ∨ c = '-' then hourMinute? rest
    else some (c :: rest)
  | [] => some []

def moment? (cs : List Char) : Option (List Char) :=
  match date? cs with
  | some (c :: rest) =>
    match if Scan.isSeparator c then time? rest else none with
    | some rest => skipOffset? rest
    | none => some (c :: rest)
  | some [] => some []
  | none => time? cs

end OwnershipRegistry.Toml
