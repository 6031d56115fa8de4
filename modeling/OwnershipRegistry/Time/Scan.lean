import OwnershipRegistry.Text.Hex
import OwnershipRegistry.Time.Instant

/-!
The parts of a written instant: numbers, fractions of a second and offsets from
universal time. Every reader takes its part off the front of the characters and
gives back the rest, or says why it cannot.
-/

namespace OwnershipRegistry

/-- Why a text is not a written instant. -/
inductive Refusal
  /-- A character that cannot stand where it stands. -/
  | malformed
  /-- The text ends within a part. -/
  | cutShort
  /-- Characters after the last part. -/
  | trailing
  /-- A number that the calendar or the clock does not have. -/
  | outOfRange
  /-- A clock reading that lies outside all instants once its offset is
  applied. -/
  | impossible
  deriving DecidableEq, Repr, Inhabited

/-- The wording of a refusal. -/
def Refusal.message : Refusal → String
  | .malformed => "input contains invalid characters"
  | .cutShort => "premature end of input"
  | .trailing => "trailing input"
  | .outOfRange => "input is out of range"
  | .impossible => "no possible date and time matching input"

namespace Scan

/-- Takes the digits at the front, up to a number of them. -/
def takeDigits : Nat → List Char → List Char × List Char
  | _, [] => ([], [])
  | 0, cs => ([], cs)
  | width + 1, c :: cs =>
    if c.isDigit then (c :: (takeDigits width cs).1, (takeDigits width cs).2)
    else ([], c :: cs)

/-- A number of one digit or more, up to a width. -/
def number (width : Nat) (cs : List Char) : Except Refusal (Nat × List Char) :=
  match takeDigits width cs with
  | ([], []) => .error .cutShort
  | ([], _ :: _) => .error .malformed
  | (ds, rest) => .ok (ofDigits ds, rest)

/-- A number of exactly two digits. A lone octet is too short to be one. -/
def twoDigits : List Char → Except Refusal (Nat × List Char)
  | [] => .error .cutShort
  | [c] => if c.utf8Size < 2 then .error .cutShort else .error .malformed
  | a :: b :: rest =>
    if a.isDigit && b.isDigit then .ok (ofDigits [a, b], rest) else .error .malformed

/-- A given character. -/
def mark (m : Char) : List Char → Except Refusal (List Char)
  | [] => .error .cutShort
  | c :: rest => if c = m then .ok rest else .error .malformed

/-- The digits after the point, as nanoseconds; those after the ninth are left
out. -/
def fraction (cs : List Char) : Except Refusal (Nat × List Char) :=
  match takeDigits 9 cs with
  | ([], []) => .error .cutShort
  | ([], _ :: _) => .error .malformed
  | (ds, rest) => .ok (ofDigits ds * 10 ^ (9 - ds.length), rest.dropWhile Char.isDigit)

/-- The fraction after a point, or nothing. -/
def optionalFraction : List Char → Except Refusal (Nat × List Char)
  | '.' :: rest => fraction rest
  | cs => .ok (0, cs)

/-- The date and the time of day have `T`, `t` or a space between them. -/
def isSeparator (c : Char) : Bool := c == 'T' || c == 't' || c == ' '

/-- The hours and minutes of an offset after its sign, in minutes; `colon` takes
what stands between them. -/
def offsetMinutes (colon : List Char → Except Refusal (List Char)) (cs : List Char) :
    Except Refusal (Nat × List Char) := do
  let (hours, cs) ← twoDigits cs
  let cs ← colon cs
  let (minutes, rest) ← twoDigits cs
  if minutes < 60 then return (60 * hours + minutes, rest) else throw .outOfRange

/-- How many minutes a clock is ahead of universal time: `Z`, or a sign with
hours and minutes. -/
def offset (colon : List Char → Except Refusal (List Char)) :
    List Char → Except Refusal (Int × List Char)
  | [] => .error .cutShort
  | c :: rest =>
    if c = 'Z' ∨ c = 'z' then .ok (0, rest)
    else if c = '+' then (offsetMinutes colon rest).map fun (n, rest) => ((n : Int), rest)
    else if c = '-' ∨ c = '\u2212' then
      (offsetMinutes colon rest).map fun (n, rest) => (-(n : Int), rest)
    else .error .malformed

/-- A second as read, with the nanoseconds that it brings: second 60 is second
59 with another 10⁹ nanoseconds. -/
def leapSecond (second : Nat) : Nat × Nat :=
  if second = 60 then (59, 10 ^ 9) else (second, 0)

end Scan

end OwnershipRegistry
