import OwnershipRegistry.Decimal.Shortest

/-!
Numerals of JSON: their grammar and their values. Whole numbers that 64 bits
hold are themselves. All others are rounded in two steps: of their digits only
those count that 64 bits hold, and this significand is then multiplied or
divided by a power of ten.
-/

namespace OwnershipRegistry.Json

structure Numeral where
  negative : Bool
  whole : List Char
  fraction : Option (List Char) := none
  /-- Whether the exponent is negative, and its digits. -/
  exponent : Option (Bool × List Char) := none
  deriving DecidableEq, Repr, Inhabited

inductive Number
  | integer (n : Int)
  | float (negative : Bool) (size : Binary64)
  deriving DecidableEq, Repr

namespace Numeral

/-- The digits and what follows them, if there is a digit. -/
def someDigits (cs : List Char) : Option (List Char × List Char) :=
  match cs.takeWhile Char.isDigit with
  | [] => none
  | ds => some (ds, cs.dropWhile Char.isDigit)

/-- The whole part, without a leading zero. -/
def readWhole (cs : List Char) : Option (List Char × List Char) := do
  let (ds, rest) ← someDigits cs
  if ds.head? = some '0' ∧ 1 < ds.length then none else some (ds, rest)

/-- The digits after a point, or none without a point. -/
def readFraction : List Char → Option (Option (List Char) × List Char)
  | '.' :: rest => do
    let (ds, rest) ← someDigits rest
    return (some ds, rest)
  | cs => some (none, cs)

/-- The sign and the digits of an exponent, or none without one. -/
def readExponent : List Char → Option (Option (Bool × List Char) × List Char)
  | c :: rest =>
    if c = 'e' ∨ c = 'E' then
      let (negative, rest) := match rest with
        | '+' :: rest => (false, rest)
        | '-' :: rest => (true, rest)
        | rest => (false, rest)
      match someDigits rest with
      | some (ds, rest) => some (some (negative, ds), rest)
      | none => none
    else some (none, c :: rest)
  | [] => some (none, [])

def read (cs : List Char) : Option (Numeral × List Char) := do
  let (negative, cs) := match cs with
    | '-' :: rest => (true, rest)
    | cs => (false, cs)
  let (whole, cs) ← readWhole cs
  let (fraction, cs) ← readFraction cs
  let (exponent, cs) ← readExponent cs
  return (⟨negative, whole, fraction, exponent⟩, cs)

def text (n : Numeral) : List Char :=
  (if n.negative then ['-'] else []) ++ n.whole ++
    (match n.fraction with
      | none => []
      | some ds => '.' :: ds) ++
    match n.exponent with
    | none => []
    | some (negative, ds) => 'e' :: (if negative then '-' else '+') :: ds

def ofNat (n : Nat) : Numeral := ⟨false, digits n, none, none⟩

/-- Appends digits to a significand while 64 bits hold it; gives the significand
and the number of digits appended. -/
def absorb (significand : Nat) : List Char → Nat × Nat
  | [] => (significand, 0)
  | d :: ds =>
    let next := 10 * significand + digitValue d
    if next < 2 ^ 64 then
      let (s, n) := absorb next ds
      (s, n + 1)
    else (significand, 0)

/-- A number divided by a power of ten, at most 10³⁰⁸ at a time. -/
def scaleDown (x : Binary64) (k : Nat) : Binary64 :=
  if x.mantissa = 0 then x
  else
    let step := min k 308
    let y := do x.div? (← Binary64.ofRatio? (10 ^ step) 1)
    if h : k ≤ 308 then y.getD ⟨0, 0⟩ else scaleDown (y.getD ⟨0, 0⟩) (k - 308)
termination_by k
decreasing_by omega

/-- A significand times a power of ten, unless that is out of range. -/
def scale? (significand : Nat) (exponent : Int) : Option Binary64 := do
  let x ← Binary64.ofRatio? significand 1
  if exponent < 0 then return scaleDown x exponent.natAbs
  else if x.mantissa = 0 then return x
  else if 308 < exponent then none
  else x.mul? (← Binary64.ofRatio? (10 ^ exponent.toNat) 1)

/-- The exponent of ten that a numeral states: the greatest one that counts is
2³¹ - 1. -/
def statedExponent (n : Numeral) : Int :=
  match n.exponent with
  | none => 0
  | some (negative, ds) => if negative then -(ofDigits ds : Int) else ofDigits ds

/-- The size of a numeral as a float, unless that is out of range. -/
def float? (n : Numeral) : Option Binary64 :=
  let (s, kept) := absorb 0 n.whole
  let (s, places) := absorb s (n.fraction.getD [])
  let stated := n.statedExponent
  if 2 ^ 31 ≤ stated.natAbs then
    if s = 0 ∨ stated < 0 then some ⟨0, 0⟩ else none
  else scale? s ((n.whole.length - kept : Nat) - (places : Int) + stated)

/-- The number of a numeral, unless it is out of range. -/
def value? (n : Numeral) : Option Number :=
  let whole := ofDigits n.whole
  if n.fraction.isNone ∧ n.exponent.isNone ∧
      (if n.negative then 0 < whole ∧ whole ≤ 2 ^ 63 else whole < 2 ^ 64) then
    some (.integer (if n.negative then -whole else whole))
  else n.float?.map (.float n.negative)

end Numeral

/-- Floats are written with the fewest digits, positionally from 10⁻⁵ and below
10¹⁶; of two equally near decimals the one that ends in an even digit is
taken. -/
def floatText (negative : Bool) (x : Binary64) : String :=
  let d := x.shortest .toEven
  String.ofList ((if negative then ['-'] else []) ++
    if -5 ≤ d.exponent ∧ d.exponent ≤ 15 then d.positional else d.scientific)

end OwnershipRegistry.Json
