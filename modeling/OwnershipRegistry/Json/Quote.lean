import OwnershipRegistry.Text.Hex

/-!
Strings of JSON. Quotes, backslashes and controls are escaped, all else stands
for itself. An escape by code unit may name half of a surrogate pair; a half
that stands alone names no character, and only a string that nobody reads may
hold one.
-/

namespace OwnershipRegistry.Json

def escapedChar (c : Char) : List Char :=
  match c with
  | '"' => ['\\', '"']
  | '\\' => ['\\', '\\']
  | '\x08' => ['\\', 'b']
  | '\x0c' => ['\\', 'f']
  | '\n' => ['\\', 'n']
  | '\r' => ['\\', 'r']
  | '\t' => ['\\', 't']
  | c =>
    if c.toNat < 32 then
      ['\\', 'u', '0', '0', hexDigit (c.toNat / 16), hexDigit (c.toNat % 16)]
    else [c]

def quote (s : String) : List Char := '"' :: s.toList.flatMap escapedChar ++ ['"']

/-- What one character or escape of a string stands for. -/
inductive CodeUnit
  | char (c : Char)
  | half (n : Nat)
  deriving DecidableEq, Repr

def CodeUnit.ofCode (n : Nat) : CodeUnit :=
  if 0xd800 ≤ n ∧ n < 0xe000 then half n else char (Char.ofNat n)

/-- The character that a letter after a backslash stands for. -/
def shortEscape? : Char → Option Char
  | '"' => some '"'
  | '\\' => some '\\'
  | '/' => some '/'
  | 'b' => some '\x08'
  | 'f' => some '\x0c'
  | 'n' => some '\n'
  | 'r' => some '\r'
  | 't' => some '\t'
  | _ => none

/-- Reads the units of a string up to its closing quote, which is left out of
the rest. -/
def readUnits : List Char → Option (List CodeUnit × List Char)
  | [] => none
  | '"' :: rest => some ([], rest)
  | '\\' :: 'u' :: a :: b :: c :: d :: rest => do
    let n := 4096 * (← hexValue? a) + 256 * (← hexValue? b) + 16 * (← hexValue? c) +
      (← hexValue? d)
    let (us, rest) ← readUnits rest
    return (CodeUnit.ofCode n :: us, rest)
  | '\\' :: e :: rest => do
    let c ← shortEscape? e
    let (us, rest) ← readUnits rest
    return (.char c :: us, rest)
  | c :: rest =>
    if c = '\\' ∨ c.toNat < 32 then none
    else do
      let (us, rest) ← readUnits rest
      return (.char c :: us, rest)

/-- The characters of units, if no half of a pair stands alone. -/
def joinUnits : List CodeUnit → Option (List Char)
  | [] => some []
  | .char c :: us => (joinUnits us).map (c :: ·)
  | .half a :: .half b :: us =>
    if a < 0xdc00 ∧ 0xdc00 ≤ b then
      (joinUnits us).map (Char.ofNat (0x10000 + 1024 * (a - 0xd800) + (b - 0xdc00)) :: ·)
    else none
  | .half _ :: _ => none

end OwnershipRegistry.Json
