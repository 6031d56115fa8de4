import OwnershipRegistry.Toml.Number

/-!
The values of a TOML text and how they come together. Every table can be added
to only in the manner in which it came to be: a header opens a table once, dotted
keys add to tables that dotted keys made, and what stands in braces is complete.
No key is set twice.
-/

namespace OwnershipRegistry.Toml

inductive Origin
  /-- A header names it. -/
  | header
  /-- Longer headers pass through it. -/
  | passed
  /-- Dotted keys pass through it. -/
  | dotted
  deriving DecidableEq, Repr

/-- A value, its tables with their entries in order. -/
inductive Value
  | text (s : String)
  | integer (n : Int)
  | float (x : Real)
  | boolean (b : Bool)
  | moment
  | array (items : List Value)
  | inline (entries : List (String × Value))
  | table (origin : Origin) (entries : List (String × Value))
  /-- Tables that headers in double brackets list. -/
  | tables (all : List (List (String × Value)))
  deriving Repr, Inhabited

abbrev Entries := List (String × Value)

/-- A key that is set to a value: the key itself, and the tables that it passes
through. -/
structure Setting where
  path : List String
  key : String
  value : Value
  deriving Repr, Inhabited

namespace Entries

/-- The entries with another value for a key that is there. -/
def replace (es : Entries) (key : String) (v : Value) : Entries :=
  es.map fun e => if e.1 = key then (key, v) else e

def erase (es : Entries) (key : String) : Entries := es.filter fun e => e.1 != key

/-- Sets a key that passes through tables. -/
def set (key : String) (v : Value) : List String → Entries → Option Entries
  | [], es => if (es.lookup key).isSome then none else some (es ++ [(key, v)])
  | step :: path, es =>
    match es.lookup step with
    | none => (set key v path []).map fun inner => es ++ [(step, .table .dotted inner)]
    | some (.table origin inner) =>
      if origin = .dotted ∨ (origin = .passed ∧ path ≠ []) then
        (set key v path inner).map fun inner => es.replace step (.table origin inner)
      else none
    | some (.tables all) =>
      match all.getLast?, path with
      | some inner, _ :: _ =>
        (set key v path inner).map fun inner =>
          es.replace step (.tables (all.dropLast ++ [inner]))
      | _, _ => none
    | some _ => none

def setAll (es : Entries) (ss : List Setting) : Option Entries :=
  ss.foldlM (fun es s => es.set s.key s.value s.path) es

/-- Changes the table that lies below those that a header passes through. -/
def below (change : Entries → Option Entries) : List String → Entries → Option Entries
  | [], es => change es
  | step :: path, es =>
    match es.lookup step with
    | none => (below change path []).map fun inner => es ++ [(step, .table .passed inner)]
    | some (.table origin inner) =>
      (below change path inner).map fun inner => es.replace step (.table origin inner)
    | some (.tables all) =>
      match all.getLast? with
      | some inner =>
        (below change path inner).map fun inner =>
          es.replace step (.tables (all.dropLast ++ [inner]))
      | none => none
    | some _ => none

/-- Opens a table and makes settings in it. One that headers passed through is
opened with what it has, and stands last then. -/
def openTable (key : String) (ss : List Setting) (es : Entries) : Option Entries :=
  match es.lookup key with
  | none => (setAll [] ss).map fun inner => es ++ [(key, .table .header inner)]
  | some (.table .passed inner) =>
    (setAll inner ss).map fun inner => es.erase key ++ [(key, .table .header inner)]
  | some _ => none

/-- Adds a table with settings to the tables that a key lists. -/
def addTable (key : String) (ss : List Setting) (es : Entries) : Option Entries :=
  match es.lookup key with
  | none => (setAll [] ss).map fun inner => es ++ [(key, .tables [inner])]
  | some (.tables all) =>
    (setAll [] ss).map fun inner => es.replace key (.tables (all ++ [inner]))
  | some _ => none

end Entries

end OwnershipRegistry.Toml
