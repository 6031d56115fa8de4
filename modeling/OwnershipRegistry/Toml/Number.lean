import OwnershipRegistry.Decimal.Shortest
import OwnershipRegistry.Text.Hex
import OwnershipRegistry.Toml.Lexeme

/-!
Numbers of TOML. Integers are decimal with a sign or hexadecimal, octal or
binary without one, and 64 bits hold them; floats have a point or an exponent or
are special. Single underscores may stand between digits.
-/

namespace OwnershipRegistry.Toml

inductive Real
  | finite (negative : Bool) (size : Binary64)
  | infinite (negative : Bool)
  | notANumber
  deriving DecidableEq, Repr

/-- Floats are written with the fewest digits, always positionally; of two
equally near decimals the greater is taken. -/
def Real.text : Real → String
  | finite negative x =>
    String.ofList ((if negative then ['-'] else []) ++ (x.shortest .up).positional)
  | infinite negative => if negative then "-inf" else "inf"
  | notANumber => "NaN"

/-- The digits at the front with single underscores between them left out. -/
def moreDigits (p : Char → Bool) : List Char → List Char × List Char
  | '_' :: c :: rest =>
    if p c then
      let (ds, rest) := moreDigits p rest
      (c :: ds, rest)
    else ([], '_' :: c :: rest)
  | c :: rest =>
    if p c then
      let (ds, rest) := moreDigits p rest
      (c :: ds, rest)
    else ([], c :: rest)
  | [] => ([], [])

def someDigits (p : Char → Bool) : Reader (List Char)
  | c :: rest =>
    if p c then
      let (ds, rest) := moreDigits p rest
      some (c :: ds, rest)
    else none
  | [] => none

/-- A sign, and whether it is a minus. -/
def sign : List Char → Bool × List Char
  | '+' :: rest => (false, rest)
  | '-' :: rest => (true, rest)
  | cs => (false, cs)

/-- The digits of a whole number, which begin with a zero only if that is all. -/
def wholeDigits : Reader (List Char)
  | '0' :: rest => some (['0'], rest)
  | cs => someDigits Char.isDigit cs

def ofBase (base : Nat) (ds : List Char) : Nat :=
  ds.foldl (fun n d => base * n + (hexValue? d).getD 0) 0

def isDigitOf (base : Nat) (c : Char) : Bool := (hexValue? c).any (· < base)

/-- An integer that 64 bits hold. -/
def within64 (n : Int) : Option Int := if -2 ^ 63 ≤ n ∧ n < 2 ^ 63 then some n else none

/-- An integer to a base after its mark. -/
def basedInteger (base : Nat) : Reader Int := fun cs => do
  let (ds, rest) ← someDigits (isDigitOf base) cs
  return (← within64 (ofBase base ds), rest)

def integer : Reader Int
  | '0' :: 'x' :: rest => basedInteger 16 rest
  | '0' :: 'o' :: rest => basedInteger 8 rest
  | '0' :: 'b' :: rest => basedInteger 2 rest
  | cs => do
    let (negative, cs) := sign cs
    let (ds, rest) ← wholeDigits cs
    let n : Int := ofDigits ds
    return (← within64 (if negative then -n else n), rest)

/-- The digits after a point, none without one. -/
def fraction? : Reader (Option (List Char))
  | '.' :: rest => (someDigits Char.isDigit rest).map fun (ds, rest) => (some ds, rest)
  | cs => some (none, cs)

/-- An exponent, none without one. -/
def exponent? : Reader (Option Int)
  | c :: rest =>
    if c = 'e' ∨ c = 'E' then do
      let (negative, rest) := sign rest
      let (ds, rest) ← someDigits Char.isDigit rest
      let n : Int := ofDigits ds
      return (some (if negative then -n else n), rest)
    else some (none, c :: rest)
  | [] => some (none, [])

/-- The float of a sign, digits and an exponent. A positive float must not be
out of range; a negative one is infinite then. -/
def ofDecimal (negative : Bool) (significand : Nat) (exponent : Int) : Option Real :=
  match Binary64.ofDecimal? significand exponent with
  | some x => some (.finite negative x)
  | none => if negative then some (.infinite true) else none

def decimalFloat : Reader Real := fun cs => do
  let (negative, cs) := sign cs
  let (whole, cs) ← wholeDigits cs
  let (fraction, cs) ← fraction? cs
  let (exponent, rest) ← exponent? cs
  if fraction.isNone ∧ exponent.isNone then none
  else
    let places := fraction.getD []
    return (← ofDecimal negative (ofDigits (whole ++ places))
      (exponent.getD 0 - places.length), rest)

def specialFloat : Reader Real := fun cs =>
  match sign cs with
  | (negative, 'i' :: 'n' :: 'f' :: rest) => some (.infinite negative, rest)
  | (_, 'n' :: 'a' :: 'n' :: rest) => some (.notANumber, rest)
  | _ => none

def float : Reader Real := fun cs => (decimalFloat cs).or (specialFloat cs)

end OwnershipRegistry.Toml
