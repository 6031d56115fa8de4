import OwnershipRegistry.Config
import OwnershipRegistry.Wire.Shape

/-!
The written forms of configurations. A configuration is a list of fields with
what was found for each, whatever the text they come from. Every field may be
left out and has its default then; other fields are refused, so that a misspelt
field is never taken for one that was left out.
-/

namespace OwnershipRegistry

open Json (Doc)
open Wire

namespace Wire

def takeOptionalText (expected : String) : Found → Except Failure (Option String)
  | .null => .ok none
  | .string s => .ok (some s)
  | f => refuse (.wrongType f expected)

def takeFlag : Found → Except Failure Bool
  | .flag b => .ok b
  | f => refuse (.wrongType f "a boolean")

def takeCount : Found → Except Failure UInt64
  | .integer n =>
    if 0 ≤ n ∧ n < 2 ^ 64 then .ok (.ofNat n.toNat)
    else refuse (.wrongValue (.integer n) "u64")
  | f => refuse (.wrongType f "u64")

end Wire

namespace StoreConfig

structure Draft where
  path : Option (Option String) := none
  busyTimeoutMs : Option UInt64 := none
  provisionBacking : Option Bool := none
  writeAhead : Option Bool := none

/-- The configuration with defaults for what was left out. -/
def Draft.toConfig (s : Draft) : StoreConfig where
  path := s.path.getD inMemory.path
  busyTimeoutMs := s.busyTimeoutMs.getD inMemory.busyTimeoutMs
  provisionBacking := s.provisionBacking.getD inMemory.provisionBacking
  writeAhead := s.writeAhead.getD inMemory.writeAhead

structure Field where
  name : String
  isSet : Draft → Bool
  take : Found → Draft → Except Failure Draft

def fields : List Field := [
  { name := "path"
    isSet s := s.path.isSome
    take f s := (takeOptionalText "path string" f).map fun x => { s with path := some x } },
  { name := "busy_timeout_ms"
    isSet s := s.busyTimeoutMs.isSome
    take f s := (takeCount f).map fun x => { s with busyTimeoutMs := some x } },
  { name := "provision_backing_tables"
    isSet s := s.provisionBacking.isSome
    take f s := (takeFlag f).map fun x => { s with provisionBacking := some x } },
  { name := "journal_wal"
    isSet s := s.writeAhead.isSome
    take f s := (takeFlag f).map fun x => { s with writeAhead := some x } }]

/-- Takes what was found for a field of a name. -/
def Draft.take (s : Draft) (name : String) (found : Found) : Except Failure Draft :=
  match fields.find? (·.name == name) with
  | some field => if field.isSet s then refuse (.duplicateField name) else field.take found s
  | none => refuse (.unknownField name (fields.map Field.name))

/-- The configuration of fields in order. -/
def ofFields (found : List (String × Found)) : Except Failure StoreConfig :=
  (found.foldlM (fun (s : Draft) f => s.take f.1 f.2) {}).map Draft.toConfig

def shape : Shape Draft where
  expected := "struct StoreConfig"
  expectedItems := "struct StoreConfig with 4 elements"
  slots := fields.map fun field =>
    { name := field.name
      isSet := field.isSet
      set d s := do field.take (← foundIn d) s }
  refusesOthers := true
  mayEndEarly := true

def ofDoc (source : Source) (d : Doc) : Except Failure StoreConfig := do
  return (← shape.read source {} d).toConfig

def toDoc (c : StoreConfig) : Doc :=
  .record [("path", (c.path.map Doc.ofString).getD .null),
    ("busy_timeout_ms", .number (.ofNat c.busyTimeoutMs.toNat)),
    ("provision_backing_tables", .bool c.provisionBacking),
    ("journal_wal", .bool c.writeAhead)]

end StoreConfig

end OwnershipRegistry
