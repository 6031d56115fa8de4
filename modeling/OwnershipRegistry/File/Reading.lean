import OwnershipRegistry.Cascade
import OwnershipRegistry.Error
import OwnershipRegistry.File.Outline
import OwnershipRegistry.Time.Strict

/-!
Reading the file. Rows are read in order and the columns of a row in order, so
that the first unreadable cell decides the fault; only then are kinds and
instants looked at, again row by row. Reading changes nothing and looks at no
cell that it does not need.
-/

namespace OwnershipRegistry

structure SessionText where
  id : String
  targetId : String
  targetKind : String
  name : Option String
  createdAt : String
  deriving DecidableEq, Repr

def SessionRow.read (r : SessionRow) : Except Fault SessionText := do
  let id ← r.id.read 0 "id"
  let targetId ← r.targetId.read 1 "target_id"
  let targetKind ← r.targetKind.read 2 "target_type"
  let name ← r.name.mapM fun c => c.read 3 "name"
  let createdAt ← r.createdAt.read 4 "created_at"
  return ⟨id, targetId, targetKind, name, createdAt⟩

/-- The session of a row: its kind is looked at before its instant. -/
def SessionText.toSession (x : SessionText) : Except RegistryError Session := do
  let target ← Target.parse x.targetId x.targetKind
  match Instant.ofStrictText x.createdAt with
  | .ok createdAt => return ⟨⟨x.id⟩, target, x.name, createdAt⟩
  | .error reason => throw (.storage (.badInstant x.id x.createdAt reason))

namespace Database

def backingPresent (db : Database) (t : Target) : Except Fault Bool :=
  db.understood {} (.readBacking t.kind)
    (.ok ((db.backing t.kind).any fun b => b.ids.contains (.ofString t.id)))

def entityPresent (db : Database) (t : Target) : Except Fault Bool :=
  db.understood {} .readEntities (.ok ((db.entities.getD ∅).contains (.ofTarget t)))

/-- The rows of the sessions of a target, in order of their identifiers. -/
def sessionRowsOf (db : Database) (t : Target) : Except Fault (List SessionRow) :=
  db.understood {} .readSessions
    (.ok ((db.sessions.getD ∅).rows.filter fun r => r.owner == .ofTarget t))

def sessionIdsOf (db : Database) (t : Target) : Except Fault (List SessionId) := do
  (← db.sessionRowsOf t).mapM fun r => return ⟨← r.id.read 0 "id"⟩

def sessionTextsOf (db : Database) (t : Target) : Except Fault (List SessionText) := do
  (← db.sessionRowsOf t).mapM SessionRow.read

def sessionText? (db : Database) (id : SessionId) : Except Fault (Option SessionText) :=
  db.understood {} .readSessions
    (((db.sessions.getD ∅).find? (.ofString id.text)).mapM SessionRow.read)

/-- The identifiers and kinds of all entities, in order of kinds and
identifiers. -/
def entityTexts (db : Database) : Except Fault (List (String × String)) :=
  db.understood {} .readEntities <|
    (db.entities.getD ∅).rows.mapM fun r => do
      return (← r.id.read 0 "target_id", ← r.kind.read 1 "target_type")

/-! ### The audit -/

/-- Whether an entity lacks the backing record of its own kind. -/
def isOrphan (db : Database) (r : EntityRow) : Bool :=
  Kind.all.any fun k =>
    r.kind == .ofString k.tag && !(db.backing k).any fun b => b.ids.contains r.id

/-- The identifiers and kinds of the entities without backing records. -/
def orphanEntities (db : Database) : Except Fault (List (String × String)) :=
  db.understood {} .auditEntities <|
    ((db.entities.getD ∅).rows.filter db.isOrphan).mapM fun r => do
      return (← r.id.read 0 "target_id", ← r.kind.read 1 "target_type")

/-- The identifiers of the sessions without entities, and of their owners. -/
def orphanSessions (db : Database) : Except Fault (List (String × String × String)) :=
  db.understood {} .auditSessions <|
    ((db.sessions.getD ∅).rows.filter fun s =>
      !(db.entities.getD ∅).contains s.owner).mapM fun s => do
        return (← s.id.read 0 "id", ← s.targetId.read 1 "target_id",
          ← s.targetKind.read 2 "target_type")

/-- What the audit reads: the orphans of both sorts. -/
def orphans (db : Database) :
    Except Fault (List (String × String) × List (String × String × String)) := do
  return (← db.orphanEntities, ← db.orphanSessions)

end Database

/-- The violations of the rows that the audit has read. -/
def violationsOf (entities : List (String × String))
    (sessions : List (String × String × String)) : Except RegistryError (List Violation) := do
  let entities ← entities.mapM fun (id, tag) => return .orphanEntity (← Target.parse id tag)
  let sessions ← sessions.mapM fun (session, id, tag) =>
    return .orphanSession ⟨session⟩ (← Target.parse id tag)
  return entities ++ sessions

end OwnershipRegistry
