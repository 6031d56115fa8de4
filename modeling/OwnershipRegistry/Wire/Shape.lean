import OwnershipRegistry.Json.Reader
import OwnershipRegistry.Wire.Failure

/-!
Shapes of records. A record is written as an object, whose fields may stand in
any order, or as an array of their values. Reading goes through the text in
order and stops at the first thing that does not fit; a field that was read is
not read again.
-/

namespace OwnershipRegistry.Wire

open Json (Doc)

/-- Where a value is read from: straight from the text, with arrays and objects
that may still be opened to keep a value for later, or from a value that was
kept. -/
inductive Source
  | text (depth : Nat)
  | kept
  deriving DecidableEq, Repr

/-- The source of the parts of an array or an object. -/
def Source.inner : Source → Source
  | text depth => text (depth - 1)
  | kept => kept

/-- Arrays and objects in each other are kept to this depth. -/
def keptDepth : Nat := 127

/-- A failure of a sound text. -/
def refuse {α : Type} (m : Misfit) : Except Failure α := .error (.misfit m)

/-- What a value is, where something else was expected. -/
def foundIn : Doc → Except Failure Found
  | .null => .ok .null
  | .bool b => .ok (.flag b)
  | .number n =>
    match n.value? with
    | some (.integer n) => .ok (.integer n)
    | some (.float negative x) => .ok (.float (Json.floatText negative x))
    | none => .error .syntaxError
  | .string (some s) => .ok (.string s)
  | .string none => .error .syntaxError
  | .array .. => .ok .sequence
  | .object .. => .ok .map
  | .broken => .error .syntaxError

def mismatch {α : Type} (d : Doc) (expected : String) : Except Failure α := do
  refuse (.wrongType (← foundIn d) expected)

def readString (expected : String) : Doc → Except Failure String
  | .string (some s) => .ok s
  | d => mismatch d expected

def readOptionalString (expected : String) : Doc → Except Failure (Option String)
  | .null => .ok none
  | d => (readString expected d).map some

def readFlag : Doc → Except Failure Bool
  | .bool b => .ok b
  | d => mismatch d "a boolean"

/-- Keeps a value for later, if its source can. -/
def keep (source : Source) (d : Doc) : Except Failure Doc :=
  match source with
  | .text depth => if d.isKept depth then .ok d else .error .syntaxError
  | .kept => .ok d

def ignore (d : Doc) : Except Failure PUnit :=
  if d.isWhole then .ok () else .error .syntaxError

structure Slot (σ : Type) where
  name : String
  isSet : σ → Bool
  set : Doc → σ → Except Failure σ
  /-- How the value is read as an element of an array. -/
  setItem : Doc → σ → Except Failure σ := set

structure Shape (σ : Type) where
  /-- What an object or an array is expected for. -/
  expected : String
  /-- What an array with all its elements is expected for. -/
  expectedItems : String
  slots : List (Slot σ)
  refusesOthers : Bool := false
  /-- Whether an array may end before its last elements. -/
  mayEndEarly : Bool := false

namespace Shape

variable {σ : Type}

def readMembers (shape : Shape σ) : List (Doc × Doc) → σ → Except Failure σ
  | [], s => .ok s
  | (.string (some key), d) :: ms, s =>
    match shape.slots.find? (·.name == key) with
    | some slot =>
      if slot.isSet s then refuse (.duplicateField key)
      else do shape.readMembers ms (← slot.set d s)
    | none =>
      if shape.refusesOthers then refuse (.unknownField key (shape.slots.map Slot.name))
      else do
        ignore d
        shape.readMembers ms s
  | _ :: _, _ => .error .syntaxError

/-- Reads the elements of an array in the order of the fields, the first of which
has the given position; gives the elements that are left. -/
def readItems (shape : Shape σ) (ended : Bool) (position : Nat) :
    List (Slot σ) → List Doc → σ → Except Failure (σ × List Doc)
  | [], ds, s => .ok (s, ds)
  | slot :: slots, d :: ds, s => do
    shape.readItems ended (position + 1) slots ds (← slot.setItem d s)
  | _ :: _, [], s =>
    if !ended then .error .syntaxError
    else if shape.mayEndEarly then .ok (s, [])
    else refuse (.wrongLength position shape.expectedItems)

/-- The number of elements in words. -/
def inSequence (n : Nat) : String :=
  if n = 1 then "1 element in sequence" else toString n ++ " elements in sequence"

def read (shape : Shape σ) (source : Source) (start : σ) : Doc → Except Failure σ
  | .object members ended => do
    let s ← shape.readMembers members start
    if ended then return s else throw .syntaxError
  | .array items ended => do
    let (s, rest) ← shape.readItems ended 0 shape.slots items start
    match source with
    | .text _ => if ended && rest.isEmpty then return s else throw .syntaxError
    | .kept =>
      if rest.isEmpty then return s
      else refuse (.wrongLength items.length (inSequence shape.slots.length))
  | d => mismatch d shape.expected

end Shape

def required {α : Type} (name : String) : Option α → Except Failure α
  | some x => .ok x
  | none => refuse (.missingField name)

/-- A slot for a field that is read at once. -/
def slot {σ α : Type} (name : String) (get : σ → Option α) (put : α → σ → σ)
    (read : Doc → Except Failure α) : Slot σ where
  name := name
  isSet s := (get s).isSome
  set d s := (read d).map fun x => put x s

/-- The text of a record read as a whole: nothing but blanks follows it. -/
def ofText {α : Type} (read : Doc → Except Failure α) (s : String) : Except Failure α := do
  let (d, rest) := Doc.read s.toList
  let x ← read d
  if (Json.skipSpace rest).isEmpty then return x else throw .syntaxError

end OwnershipRegistry.Wire
