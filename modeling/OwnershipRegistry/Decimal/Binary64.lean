import OwnershipRegistry.Text.Hex

/-!
Numbers of the form m · 2ᵉ with 53 bits for m, which is what a quantity without
a sign is rounded to. Rounding goes to the nearest such number, from half way to
the even one; a quantity beyond them all is not rounded.
-/

namespace OwnershipRegistry

/-- The number `mantissa` · 2 ^ `exponent`. -/
structure Binary64 where
  mantissa : Nat
  exponent : Int
  deriving DecidableEq, Repr, Inhabited

namespace Binary64

def leastExponent : Int := -1074

def greatestExponent : Int := 971

/-- A fraction with the value of a number. -/
def ratio (x : Binary64) : Nat × Nat :=
  (x.mantissa * 2 ^ x.exponent.toNat, 2 ^ (-x.exponent).toNat)

/-- A quotient rounded to the nearest natural number, from half way to the even
one. -/
def roundDiv (num den : Nat) : Nat :=
  let q := num / den
  let twice := 2 * (num % den)
  if twice < den ∨ (twice = den ∧ q % 2 = 0) then q else q + 1

/-- A fraction rounded to the nearest number. -/
def ofRatio? (num den : Nat) : Option Binary64 :=
  if num = 0 then some ⟨0, 0⟩
  else
    let guess : Int := (num.log2 : Int) - den.log2 - 53
    let fits (e : Int) := decide (num * 2 ^ (-e).toNat < den * 2 ^ e.toNat * 2 ^ 53)
    let e :=
      if fits guess then guess
      else if fits (guess + 1) then guess + 1
      else guess + 2
    let e := max e leastExponent
    let m := roundDiv (num * 2 ^ (-e).toNat) (den * 2 ^ e.toNat)
    let (m, e) := if m = 2 ^ 53 then (2 ^ 52, e + 1) else (m, e)
    if greatestExponent < e then none else some ⟨m, e⟩

/-- A significand times a power of ten rounded to the nearest number. What has
more than 310 digits before the point is beyond all numbers, and what has more
than 330 zeros after it is nearest to zero. -/
def ofDecimal? (significand : Nat) (exponent : Int) : Option Binary64 :=
  let length : Int := (digits significand).length
  if significand = 0 ∨ length + exponent < -330 then some ⟨0, 0⟩
  else if 310 < length + exponent then none
  else ofRatio? (significand * 10 ^ exponent.toNat) (10 ^ (-exponent).toNat)

def mul? (x y : Binary64) : Option Binary64 :=
  ofRatio? (x.ratio.1 * y.ratio.1) (x.ratio.2 * y.ratio.2)

def div? (x y : Binary64) : Option Binary64 :=
  ofRatio? (x.ratio.1 * y.ratio.2) (x.ratio.2 * y.ratio.1)

end Binary64

end OwnershipRegistry
