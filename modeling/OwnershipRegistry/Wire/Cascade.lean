import OwnershipRegistry.Cascade
import OwnershipRegistry.Wire.Session

/-!
The written forms of cascade reports and violations. A violation tells its kind
in a field of its own, which may stand anywhere; the other fields are kept until
all have been seen.
-/

namespace OwnershipRegistry

open Json (Doc)
open Wire

namespace CascadeReport

def readSessions : Doc → Except Failure (List SessionId)
  | .array items ended => do
    let ids ← items.mapM SessionId.ofDoc
    if ended then return ids else throw .syntaxError
  | d => mismatch d "a sequence"

structure Draft where
  target : Option Target := none
  backingRemoved : Option Bool := none
  entityRemoved : Option Bool := none
  sessionsRemoved : Option (List SessionId) := none

def shape (source : Source) : Shape Draft where
  expected := "struct CascadeReport"
  expectedItems := "struct CascadeReport with 4 elements"
  slots := [
    slot "target" Draft.target (fun x s => { s with target := some x })
      (Target.ofDoc source.inner),
    slot "backing_removed" Draft.backingRemoved
      (fun x s => { s with backingRemoved := some x }) readFlag,
    slot "entity_removed" Draft.entityRemoved
      (fun x s => { s with entityRemoved := some x }) readFlag,
    slot "sessions_removed" Draft.sessionsRemoved
      (fun x s => { s with sessionsRemoved := some x }) readSessions]

def ofDoc (source : Source) (d : Doc) : Except Failure CascadeReport := do
  let s ← (shape source).read source {} d
  return ⟨← required "target" s.target, ← required "backing_removed" s.backingRemoved,
    ← required "entity_removed" s.entityRemoved,
    ← required "sessions_removed" s.sessionsRemoved⟩

def toDoc (r : CascadeReport) : Doc :=
  .record [("target", r.target.toDoc), ("backing_removed", .bool r.backingRemoved),
    ("entity_removed", .bool r.entityRemoved),
    ("sessions_removed", .ofList (r.sessionsRemoved.map SessionId.toDoc))]

end CascadeReport

namespace Violation

inductive Subject
  | entity
  | session
  deriving DecidableEq, Repr

namespace Subject

def tag : Subject → String
  | entity => "orphan_entity"
  | session => "orphan_session"

def ofDoc (d : Doc) : Except Failure Subject := do
  let tag ← readString "variant identifier" d
  match [entity, session].find? (·.tag == tag) with
  | some s => return s
  | none => refuse (.unknownVariant tag [entity.tag, session.tag])

end Subject

/-- The shape of what is said about an orphaned entity. -/
def entityShape : Shape (Option Target) where
  expected := "struct variant IntegrityViolation::OrphanEntity"
  expectedItems := "struct variant IntegrityViolation::OrphanEntity with 1 element"
  slots := [slot "target" id (fun t _ => some t) (Target.ofDoc .kept)]

structure Draft where
  session : Option SessionId := none
  target : Option Target := none

/-- The shape of what is said about an orphaned session. -/
def sessionShape : Shape Draft where
  expected := "struct variant IntegrityViolation::OrphanSession"
  expectedItems := "struct variant IntegrityViolation::OrphanSession with 2 elements"
  slots := [
    slot "session" Draft.session (fun x s => { s with session := some x }) SessionId.ofDoc,
    slot "target" Draft.target (fun x s => { s with target := some x })
      (Target.ofDoc .kept)]

/-- Reads what was kept about a subject. -/
def ofKept (d : Doc) : Subject → Except Failure Violation
  | .entity => do
    return .orphanEntity (← required "target" (← entityShape.read .kept none d))
  | .session => do
    let s ← sessionShape.read .kept {} d
    return .orphanSession (← required "session" s.session) (← required "target" s.target)

/-- Looks for the subject among the members of an object and keeps the others. -/
def readMembers (source : Source) :
    List (Doc × Doc) → Option Subject → Except Failure (Option Subject × List (Doc × Doc))
  | [], s => .ok (s, [])
  | (.string (some key), d) :: ms, s =>
    if key = "kind" then
      if s.isSome then refuse (.duplicateField "kind")
      else do readMembers source ms (some (← Subject.ofDoc d))
    else do
      let d ← keep source d
      let (s, rest) ← readMembers source ms s
      return (s, (.ofString key, d) :: rest)
  | _ :: _, _ => .error .syntaxError

def ofDoc (source : Source) : Doc → Except Failure Violation
  | .object members ended => do
    let (subject, rest) ← readMembers source.inner members none
    if !ended then throw .syntaxError
    ofKept (.object rest true) (← required "kind" subject)
  | .array [] ended => if ended then refuse (.missingField "kind") else .error .syntaxError
  | .array (d :: ds) ended => do
    let subject ← Subject.ofDoc d
    let ds ← ds.mapM (keep source.inner)
    if !ended then throw .syntaxError
    ofKept (.array ds true) subject
  | d => mismatch d "internally tagged enum IntegrityViolation"

def toDoc : Violation → Doc
  | orphanEntity t => .record [("kind", .ofString Subject.entity.tag), ("target", t.toDoc)]
  | orphanSession id t =>
    .record [("kind", .ofString Subject.session.tag), ("session", id.toDoc),
      ("target", t.toDoc)]

end Violation

end OwnershipRegistry
