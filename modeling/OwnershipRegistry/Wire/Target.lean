import OwnershipRegistry.Target
import OwnershipRegistry.Wire.Shape

/-!
The written forms of kinds, targets and identifiers. A target has its kind beside
its identifier, in either order; an identifier that comes first is kept until the
kind is known.
-/

namespace OwnershipRegistry

open Json (Doc)
open Wire

namespace Kind

/-- The kind of a written form, or that there is no such kind. -/
def ofVariant (tag : String) : Except Failure Kind :=
  match ofTag? tag with
  | some k => .ok k
  | none => refuse (.unknownVariant tag (all.map Kind.tag))

/-- The kind that is a single name. -/
def ofName (source : Source) : Doc → Except Failure Kind
  | .string (some tag) => ofVariant tag
  | d =>
    match source, foundIn d with
    | .kept, .ok (.integer (.ofNat n)) =>
      match all[n]? with
      | some k => .ok k
      | none => refuse (.wrongValue (.integer n) "variant index 0 <= i < 2")
    | _, _ => mismatch d "variant identifier"

/-- Whether a value is nothing: null, and among kept values also an empty
object. -/
def isNothing (source : Source) : Doc → Bool
  | .null => true
  | .object [] _ => source == .kept
  | _ => false

/-- The kind that is a name, or the name of a field that holds nothing. -/
def ofDoc (source : Source) : Doc → Except Failure Kind
  | .string (some tag) => ofVariant tag
  | .object members ended =>
    match members, source with
    | (.string (some tag), d) :: rest, .text _ => do
      let k ← ofVariant tag
      if !isNothing source d then mismatch d "unit"
      else if ended && rest.isEmpty then return k
      else throw .syntaxError
    | _, .text _ => .error .syntaxError
    | [(key, d)], .kept => do
      let k ← ofName source key
      if isNothing source d then return k else mismatch d "unit"
    | _, .kept => refuse (.wrongValue .map "map with a single key")
  | d =>
    match source with
    | .text _ => .error .syntaxError
    | .kept => mismatch d "string or map"

def toDoc (k : Kind) : Doc := .ofString k.tag

end Kind

namespace Target

structure Draft where
  kind : Option Kind := none
  /-- The identifier as found before the kind. -/
  held : Option Doc := none
  id : Option String := none

def readId (d : Doc) : Except Failure String := readString "a string" d

/-- Takes the kind, and with it an identifier that came first. -/
def Draft.setKind (s : Draft) (k : Kind) : Except Failure Draft :=
  match s.held with
  | none => .ok { s with kind := some k }
  | some d => (readId d).map fun id => { s with kind := some k, id := some id }

/-- Takes the identifier, or keeps it until the kind is known. -/
def Draft.setId (source : Source) (d : Doc) (s : Draft) : Except Failure Draft :=
  match s.kind with
  | some _ => (readId d).map fun id => { s with id := some id }
  | none => (keep source d).map fun d => { s with held := some d }

def shape (source : Source) : Shape Draft where
  expected := "adjacently tagged enum TargetRef"
  expectedItems := "adjacently tagged enum TargetRef"
  slots := [
    { name := "target_type"
      isSet s := s.kind.isSome
      set d s := do s.setKind (← Kind.ofDoc source d)
      setItem d s := do s.setKind (← Kind.ofName source d) },
    { name := "target_id"
      isSet s := s.held.isSome || s.id.isSome
      set d s := s.setId source.inner d }]

def ofDoc (source : Source) (d : Doc) : Except Failure Target := do
  let s ← (shape source).read source {} d
  return ⟨← required "target_type" s.kind, ← required "target_id" s.id⟩

def toDoc (t : Target) : Doc :=
  .record [("target_type", t.kind.toDoc), ("target_id", .ofString t.id)]

end Target

def idToDoc (id : String) : Doc := .ofString id

end OwnershipRegistry
