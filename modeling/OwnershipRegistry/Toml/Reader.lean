import OwnershipRegistry.Toml.Moment
import OwnershipRegistry.Toml.Text
import OwnershipRegistry.Toml.Tree

/-!
Reading TOML text. A text is read line by line into settings and headers, and
these are put together to the entries of its outermost table. Arrays and tables
in braces lie in each other at most 79 deep, and keys have at most 79 parts.
-/

namespace OwnershipRegistry.Toml

/-- The greatest depth of values in each other, and of tables that a key passes
through with the key itself. -/
def greatestDepth : Nat := 79

def isKeyChar (c : Char) : Bool :=
  c.isAlphanum || c == '-' || c == '_'

def keyPart : Reader String
  | '"' :: rest => (escapedText rest).map fun (cs, rest) => (String.ofList cs, rest)
  | '\'' :: rest => (literalText rest).map fun (cs, rest) => (String.ofList cs, rest)
  | cs =>
    match cs.takeWhile isKeyChar with
    | [] => none
    | key => some (String.ofList key, cs.dropWhile isKeyChar)

/-- The parts of a key with dots between them, at most so many. -/
def keyParts : Nat → Reader (List String)
  | 0, _ => none
  | count + 1, cs => do
    let (part, cs) ← keyPart (skipSpace cs)
    match skipSpace cs with
    | '.' :: rest => do
      let (parts, rest) ← keyParts count rest
      return (part :: parts, rest)
    | rest => return ([part], rest)

/-- A key: the tables that it passes through, and its last part. -/
def key : Reader (List String × String) := fun cs => do
  let (parts, rest) ← keyParts greatestDepth cs
  return ((parts.dropLast, ← parts.getLast?), rest)

/-- A key and its value, which is read by `value`. -/
def setting (value : Reader Value) : Reader Setting := fun cs => do
  let ((path, key), cs) ← key cs
  let (v, rest) ← value (skipSpace (← mark? '=' cs))
  return (⟨path, key, v⟩, rest)

/-- The rest of an array after its opening bracket or a comma. -/
def arrayItems (value : Reader Value) : Nat → Reader (List Value)
  | 0, _ => none
  | fuel + 1, cs =>
    match skipLines false cs with
    | ']' :: rest => some ([], rest)
    | cs => do
      let (v, cs) ← value cs
      match skipLines false cs with
      | ']' :: rest => return ([v], rest)
      | ',' :: rest => do
        let (vs, rest) ← arrayItems value fuel rest
        return (v :: vs, rest)
      | _ => none

/-- The rest of a table in braces after its opening brace or a comma. -/
def inlineSettings (value : Reader Value) : Nat → Reader (List Setting)
  | 0, _ => none
  | fuel + 1, cs => do
    let (s, cs) ← setting value cs
    match skipSpace cs with
    | '\x7d' :: rest => return ([s], rest)
    | ',' :: rest => do
      let (ss, rest) ← inlineSettings value fuel rest
      return (s :: ss, rest)
    | _ => none

/-- A value that begins like a number. -/
def numberOrMoment (cs : List Char) : Option (Value × List Char) :=
  match moment? cs with
  | some rest => some (.moment, rest)
  | none =>
    match float cs with
    | some (x, rest) => some (.float x, rest)
    | none => (integer cs).map fun (n, rest) => (.integer n, rest)

/-- A value with arrays and tables in each other up to a depth. -/
def valueWithin : Nat → Reader Value
  | depth, '[' :: rest =>
    match depth with
    | 0 => none
    | depth + 1 =>
      (arrayItems (valueWithin depth) (rest.length + 1) rest).map fun (vs, rest) =>
        (.array vs, rest)
  | depth, '\x7b' :: rest =>
    match depth with
    | 0 => none
    | depth + 1 =>
      match skipSpace rest with
      | '\x7d' :: rest => some (.inline [], rest)
      | _ => do
        let (ss, rest) ← inlineSettings (valueWithin depth) (rest.length + 1) rest
        return (.inline (← Entries.setAll [] ss), rest)
  | _, 't' :: 'r' :: 'u' :: 'e' :: rest => some (.boolean true, rest)
  | _, 'f' :: 'a' :: 'l' :: 's' :: 'e' :: rest => some (.boolean false, rest)
  | _, '"' :: rest => (text ('"' :: rest)).map fun (s, rest) => (.text s, rest)
  | _, '\'' :: rest => (text ('\'' :: rest)).map fun (s, rest) => (.text s, rest)
  | _, cs => numberOrMoment cs

def value : Reader Value := valueWithin greatestDepth

inductive Line
  | setting (s : Setting)
  | table (path : List String) (key : String)
  | listedTable (path : List String) (key : String)
  deriving Repr

/-- One line that is neither empty nor a comment. -/
def line (cs : List Char) : Option (Line × List Char) :=
  match cs with
  | '[' :: '[' :: rest => do
    let ((path, key), rest) ← key rest
    return (.listedTable path key, ← mark? ']' (← mark? ']' rest))
  | '[' :: rest => do
    let ((path, key), rest) ← key rest
    return (.table path key, ← mark? ']' rest)
  | cs => do
    let (s, rest) ← setting value cs
    return (.setting s, rest)

def lines : Nat → List Char → Option (List Line)
  | 0, _ => none
  | fuel + 1, cs =>
    match skipSpace cs with
    | [] => some []
    | c :: rest =>
      if c = '#' ∨ c = '\n' ∨ c = '\r' then do lines fuel (← endLine? (c :: rest))
      else do
        let (l, rest) ← line (c :: rest)
        return l :: (← lines fuel (← endLine? rest))

/-- The settings in front of the first header, and the rest. -/
def leadingSettings : List Line → List Setting × List Line
  | .setting s :: ls =>
    let (ss, rest) := leadingSettings ls
    (s :: ss, rest)
  | ls => ([], ls)

/-- The entries with what further lines say. -/
def Entries.ofLines : List Line → Entries → Option Entries
  | [], es => some es
  | .setting _ :: ls, es => Entries.ofLines ls es
  | .table path key :: ls, es => do
    Entries.ofLines ls (← es.below (Entries.openTable key (leadingSettings ls).1) path)
  | .listedTable path key :: ls, es => do
    Entries.ofLines ls (← es.below (Entries.addTable key (leadingSettings ls).1) path)

/-- The entries of the outermost table of a text. A byte order mark in front is
no part of the text. -/
def entries? (s : String) : Option Entries := do
  let cs := match s.toList with
    | '\ufeff' :: rest => rest
    | cs => cs
  let ls ← lines (cs.length + 1) cs
  Entries.ofLines ls (← Entries.setAll [] (leadingSettings ls).1)

end OwnershipRegistry.Toml
