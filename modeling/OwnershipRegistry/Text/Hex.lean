/-!
Numbers in digits, decimal with leading zeros where a width is asked for and
hexadecimal in lower case, and octets as pairs of hexadecimal digits. Powers are
those of the core library, also where others are in reach, so that a bound such as
`2 ^ 64` is the same term in every module.
-/

attribute [instance (high), default_instance (high + 1)] instPowNat

namespace OwnershipRegistry

def digitValue (c : Char) : Nat := c.toNat - 48

def ofDigits (cs : List Char) : Nat := cs.foldl (fun n c => 10 * n + digitValue c) 0

def digits (n : Nat) : List Char := Nat.toDigits 10 n

/-- The decimal digits of a number, with zeros in front up to a width. -/
def padded (width n : Nat) : List Char :=
  List.replicate (width - (digits n).length) '0' ++ digits n

def hexDigit (n : Nat) : Char :=
  if n < 10 then Char.ofNat (48 + n) else Char.ofNat (87 + n)

/-- The value of a hexadecimal digit of either case. -/
def hexValue? (c : Char) : Option Nat :=
  if '0' ≤ c ∧ c ≤ '9' then some (c.toNat - 48)
  else if 'a' ≤ c ∧ c ≤ 'f' then some (c.toNat - 87)
  else if 'A' ≤ c ∧ c ≤ 'F' then some (c.toNat - 55)
  else none

def hexText (n : Nat) : String := String.ofList (Nat.toDigits 16 n)

def hexOctets (os : List UInt8) : String :=
  String.ofList (os.flatMap fun o => [hexDigit (o.toNat / 16), hexDigit (o.toNat % 16)])

def ofHexDigits? : List Char → Option (List UInt8)
  | [] => some []
  | a :: b :: rest => do
    let x ← hexValue? a
    let y ← hexValue? b
    let os ← ofHexDigits? rest
    return UInt8.ofNat (16 * x + y) :: os
  | [_] => none

def ofHexOctets? (s : String) : Option (List UInt8) := ofHexDigits? s.toList

end OwnershipRegistry
