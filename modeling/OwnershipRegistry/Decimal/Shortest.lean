import OwnershipRegistry.Decimal.Binary64
import OwnershipRegistry.Text.Hex

/-!
The fewest decimal digits that identify a number: of all decimals that are
rounded to it those with the fewest digits, and of these the nearest. Two of
them may be equally near; which one is taken is up to the format.
-/

namespace OwnershipRegistry

/-- A decimal: its digits with a point after the first, times a power of
ten. -/
structure Decimal where
  digits : List Char
  exponent : Int
  deriving DecidableEq, Repr, Inhabited

/-- Which of two equally near decimals is taken. -/
inductive Tie
  | toEven
  | up
  deriving DecidableEq, Repr

namespace Binary64

/-- The bounds of what is rounded to a number, and the number between them, as
numerators over one denominator. -/
def bounds (x : Binary64) : Nat × Nat × Nat × Nat :=
  let (num, den) := x.ratio
  let unit := 2 ^ x.exponent.toNat
  let below := if x.mantissa = 2 ^ 52 ∧ leastExponent < x.exponent then unit else 2 * unit
  (4 * num - below, 4 * num, 4 * num + 2 * unit, 4 * den)

/-- The exponent of ten of the first digit of a fraction. -/
def firstExponent (num den : Nat) : Int :=
  (OwnershipRegistry.digits (num * 10 ^ 400 / den)).length - 401

/-- The decimal of `count` digits that is rounded to a number, if there is one;
of two the nearer. -/
def decimalOf? (tie : Tie) (x : Binary64) (count : Nat) : Option (Nat × Int) :=
  let (low, value, high, den) := x.bounds
  let scale := firstExponent value den - (count - 1 : Nat)
  let up := 10 ^ scale.toNat
  let down := 10 ^ (-scale).toNat
  let inside (d : Nat) : Bool :=
    let scaled := d * up * den
    if x.mantissa % 2 = 0 then low * down ≤ scaled && scaled ≤ high * down
    else low * down < scaled && scaled < high * down
  let d := value * down / (den * up)
  let rest := value * down % (den * up)
  match inside d, inside (d + 1) with
  | false, false => none
  | true, false => some (d, scale)
  | false, true => some (d + 1, scale)
  | true, true =>
    if 2 * rest < den * up ∨ (2 * rest = den * up ∧ tie = .toEven ∧ d % 2 = 0) then
      some (d, scale)
    else some (d + 1, scale)

/-- A decimal without zeros at its end. -/
def trimmed (d : Nat) (scale : Int) : Decimal :=
  let ds := OwnershipRegistry.digits d
  let kept := (ds.reverse.dropWhile (· == '0')).reverse
  ⟨if kept.isEmpty then ['0'] else kept, scale + (ds.length - 1 : Nat)⟩

/-- The shortest decimal of a number. -/
def shortest (tie : Tie) (x : Binary64) : Decimal :=
  match (List.range 17).findSome? fun n => x.decimalOf? tie (n + 1) with
  | some (d, scale) => if x.mantissa = 0 then ⟨['0'], 0⟩ else trimmed d scale
  | none => ⟨['0'], 0⟩

end Binary64

namespace Decimal

/-- Positional notation, with a digit on both sides of the point. -/
def positional (d : Decimal) : List Char :=
  if d.exponent < 0 then
    '0' :: '.' :: List.replicate (d.exponent.natAbs - 1) '0' ++ d.digits
  else
    let places := d.exponent.toNat + 1
    let whole := d.digits.take places
    let fraction := d.digits.drop places
    whole ++ List.replicate (places - whole.length) '0' ++
      '.' :: (if fraction.isEmpty then ['0'] else fraction)

/-- Notation by powers of ten: a point only between digits, and a signed
exponent. -/
def scientific (d : Decimal) : List Char :=
  d.digits.take 1 ++ (if d.digits.length ≤ 1 then [] else '.' :: d.digits.drop 1) ++
    'e' :: (if d.exponent < 0 then '-' else '+') ::
      OwnershipRegistry.digits d.exponent.natAbs

end Decimal

end OwnershipRegistry
