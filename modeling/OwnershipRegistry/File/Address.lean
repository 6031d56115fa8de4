import OwnershipRegistry.Fault
import OwnershipRegistry.Text.Hex

/-!
Addresses. A path that begins with `file:` is an address: it has a name, and
options that say how the tables under that name are opened. Separators count
where they stand unescaped. The parts between them are unescaped one by one, and
an escaped NUL hides the rest of its part.
-/

namespace OwnershipRegistry

/-- Who keeps the tables under a name. -/
inductive Keeper
  | plain
  | unlocked
  /-- Takes locks by files beside the file. -/
  | dotted
  | exclusive
  | memory
  deriving DecidableEq, Repr

namespace Keeper

def all : List Keeper := [plain, unlocked, dotted, exclusive, memory]

def text : Keeper → String
  | plain => "unix"
  | unlocked => "unix-none"
  | dotted => "unix-dotfile"
  | exclusive => "unix-excl"
  | memory => "memdb"

end Keeper

inductive OpenMode
  | readOnly
  | existing
  /-- For changes too, and made if they are not there. -/
  | create
  | memory
  deriving DecidableEq, Repr

namespace OpenMode

def all : List OpenMode := [readOnly, existing, create, memory]

def text : OpenMode → String
  | readOnly => "ro"
  | existing => "rw"
  | create => "rwc"
  | memory => "memory"

/-- Whether a mode may be asked for after another: one may only ask for less,
but memory may always be asked for, and anything after it. -/
def permits : OpenMode → OpenMode → Bool
  | memory, _ | create, _ | _, memory | _, readOnly | existing, existing => true
  | _, _ => false

end OpenMode

structure Address where
  name : List UInt8
  keeper : Keeper := .plain
  mode : OpenMode := .create
  /-- Whether stores share what they keep in memory. -/
  cached : Bool := false
  deriving DecidableEq, Repr

namespace Address

/-- The octet that two digits stand for. -/
def escaped? (a b : UInt8) : Option UInt8 := do
  let x ← hexValue? (Char.ofNat a.toNat)
  let y ← hexValue? (Char.ofNat b.toNat)
  return UInt8.ofNat (16 * x + y)

def mark (c : Char) : UInt8 := UInt8.ofNat c.toNat

def unescape : List UInt8 → List UInt8
  | o :: a :: b :: rest =>
    match if o = mark '%' then escaped? a b else none with
    | some x => if x = 0 then [] else x :: unescape rest
    | none => o :: unescape (a :: b :: rest)
  | os => os

/-- The octets before the first separator, and those after it. -/
def cut (separator : UInt8) (os : List UInt8) : List UInt8 × List UInt8 :=
  (os.takeWhile (· != separator), (os.dropWhile (· != separator)).drop 1)

def split (separator : UInt8) : List UInt8 → List (List UInt8)
  | [] => [[]]
  | o :: rest =>
    if o = separator then [] :: split separator rest
    else match split separator rest with
      | part :: parts => (o :: part) :: parts
      | [] => [[o]]

/-- The options of an address, each with its value; those without a name are left
out. -/
def options (os : List UInt8) : List (List UInt8 × List UInt8) :=
  ((split (mark '&') os).map fun part =>
    let (name, value) := cut (mark '=') part
    (unescape name, unescape value)).filter fun o => !o.1.isEmpty

/-- Follows an option that says how tables are opened. -/
def follow (a : Address) (name value : List UInt8) : Except Fault Address :=
  if name = octets "cache" then
    if value = octets "shared" then .ok { a with cached := true }
    else if value = octets "private" then .ok { a with cached := false }
    else .error (.noMode "cache" (Utf8.mend value))
  else if name = octets "mode" then
    match OpenMode.all.find? fun m => octets m.text == value with
    | none => .error (.noMode "access" (Utf8.mend value))
    | some m =>
      if a.mode.permits m then .ok { a with mode := m }
      else .error (.modeNotAllowed (Utf8.mend value))
  else .ok a

/-- The keeper that the options ask for; the last one asked for counts. -/
def keeperOf (os : List (List UInt8 × List UInt8)) : Except Fault Keeper :=
  match os.reverse.lookup (octets "vfs") with
  | none => .ok .plain
  | some name =>
    match Keeper.all.find? fun k => octets k.text == name with
    | some k => .ok k
    | none => .error (.noKeeper (Utf8.mend name))

/-- Splits off the machine that an address names. -/
def authority (os : List UInt8) : List UInt8 × List UInt8 :=
  match os with
  | a :: b :: rest =>
    if a = mark '/' ∧ b = mark '/' then rest.span (· != mark '/') else ([], os)
  | _ => ([], os)

/-- Reads an address after its `file:`. Its machine is this one. -/
def read (os : List UInt8) : Except Fault Address := do
  let (machine, rest) := authority os
  if machine ≠ [] ∧ machine ≠ octets "localhost" then
    throw (.badAuthority (Utf8.mend machine))
  let (name, rest) := cut (mark '?') (rest.takeWhile (· != mark '#'))
  let asked := options rest
  let plain : Address := { name := unescape name }
  let a ← asked.foldlM (fun (a : Address) (name, value) => a.follow name value) plain
  return { a with keeper := ← keeperOf asked }

/-- The address that a path is, if it is one. -/
def ofPath? (path : String) : Option (Except Fault Address) :=
  let scheme := octets "file:"
  if scheme.isPrefixOf (octets path) then some (read ((octets path).drop scheme.length))
  else none

end Address

end OwnershipRegistry
