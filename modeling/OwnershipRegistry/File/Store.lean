import OwnershipRegistry.File.Access
import OwnershipRegistry.File.Change
import OwnershipRegistry.File.Reading

/-!
The store on the file. A registration or a new session is one insertion, and the
rule that it breaks tells the error; a removal is one deletion, and the reports
are read under the same lock before it. Every change is one transaction.
-/

namespace OwnershipRegistry.FileStore

def reading {α : Type} (a : Access) (db : Database) (f : Database → Except Fault α) :
    Outcome Database α :=
  let answer := a.read db f
  ⟨db, answer, lockEvents answer⟩

/-- The outcome of a transaction, with the events that its answer calls for. -/
def writing {α : Type} (a : Access) (db : Database)
    (f : Database → Except RegistryError (Database × α)) (events : α → List Event) :
    Outcome Database α :=
  match a.write db f with
  | .ok (db', x) => ⟨db', .ok x, events x⟩
  | .error e => ⟨db, .error e, lockEvents (α := α) (.error e)⟩

/-- Adds a backing record; a row that breaks a rule of its table is left out. -/
def insertBacking (a : Access) (db : Database) (t : Target) : Outcome Database Bool :=
  writing a db
    (fun db =>
      match a.change db (.insertBacking t.kind)
          (db.insertBacking {} t.kind (some (.ofString t.id))) with
      | .ok db => .ok (db, true)
      | .error f => if f.isOfRow then .ok (db, false) else .error (.ofFault f))
    fun inserted => if inserted then [.backingInserted t] else []

/-- Deletes a backing record; entity and sessions go with it. -/
def deleteBacking (a : Access) (db : Database) (t : Target) :
    Outcome Database CascadeReport :=
  writing a db
    (fun db => do
      let entity ← (db.entityPresent t).mapError .ofFault
      let sessions ← (db.sessionIdsOf t).mapError .ofFault
      let (db, deleted) ←
        (a.change db (.deleteBacking t.kind)
          (db.deleteBacking {} t.kind (some (.ofString t.id)))).mapError .ofFault
      return (db, if deleted = 0 then .empty t else ⟨t, true, entity, sessions⟩))
    fun r =>
      if r.backingRemoved then [.backingDeleted t r.entityRemoved r.sessionsRemoved.length]
      else []

/-- Deletes an entity whose backing record has gone away; its sessions go with
it. -/
def backingDeleted (a : Access) (db : Database) (t : Target) :
    Outcome Database CascadeReport :=
  (writing a db
    (fun db => do
      let _ ← (db.backingPresent t).mapError .ofFault
      let sessions ← (db.sessionIdsOf t).mapError .ofFault
      let (db, deleted) ←
        (a.change db .deleteEntity (db.deleteEntities {} (· == .ofTarget t))).mapError .ofFault
      return (db, ⟨t, false, decide (0 < deleted), sessions⟩))
    fun r =>
      [if r.entityRemoved then .removedByHook t r.sessionsRemoved.length
        else .absentAtHook t]).after
    (match a.begins, db.backingPresent t with
      | true, .ok true => [.hookWhileBacked t]
      | _, _ => [])

/-- Registers a target: one insertion, whose rules make all the checks. -/
def register (a : Access) (db : Database) (t : Target) : Outcome Database Target :=
  (writing a db
    (fun db =>
      match a.change db .insertEntity
          (db.insertEntity {} (some (.ofString t.id)) (some (.ofString t.kind.tag))) with
      | .ok db => .ok (db, t)
      | .error (.taken _) => .error (.duplicateEntity t)
      | .error .noReferent => .error (.unknownBacking t)
      | .error .unlistedKind => .error (.invalidKind t.kind.tag)
      | .error f => .error (.ofFault f))
    fun t => [.registered t]).after [.registering t]

/-- Makes a session: one insertion, whose rules make all the checks. -/
def createSession (a : Access) (now : Instant) (db : Database) (new : NewSession) :
    Outcome Database Session :=
  let session := new.toSession now
  let row := SessionRow.ofSession session
  writing a db
    (fun db =>
      match a.change db .insertSession
          (db.insertSession {} (some row.id) (some row.targetId) (some row.targetKind)
            row.name (some row.createdAt)) with
      | .ok db => .ok (db, session)
      | .error (.taken _) => .error (.duplicateSession new.id)
      | .error .noReferent => .error (.unknownEntity new.target)
      | .error f => .error (.ofFault f))
    fun s => [.sessionCreated s.id s.target]

def getSession (a : Access) (db : Database) (id : SessionId) :
    Outcome Database (Option Session) :=
  (reading a db (·.sessionText? id)).judge fun x => x.mapM SessionText.toSession

/-- The sessions of a target, in order of their identifiers. -/
def listSessions (a : Access) (db : Database) (t : Target) :
    Outcome Database (List Session) :=
  (reading a db (·.sessionTextsOf t)).judge fun xs => xs.mapM SessionText.toSession

def deleteSession (a : Access) (db : Database) (id : SessionId) : Outcome Database Unit :=
  (writing a db
    (fun db =>
      (a.change db .deleteSession
        (db.deleteSessions {} (·.id == .ofString id.text))).mapError .ofFault)
    fun deleted => if deleted = 0 then [] else [.sessionDeleted id]).judge
    fun deleted => if deleted = 0 then .error (.sessionNotFound id) else .ok ()

def deleteAllSessions (a : Access) (db : Database) (t : Target) : Outcome Database Nat :=
  writing a db
    (fun db =>
      (a.change db .deleteSession
        (db.deleteSessions {} (·.owner == .ofTarget t))).mapError .ofFault)
    fun deleted => [.sessionsDeleted t deleted]

def listEntities (a : Access) (db : Database) : Outcome Database (List Target) :=
  (reading a db Database.entityTexts).judge fun xs =>
    xs.mapM fun (id, tag) => Target.parse id tag

/-- Runs an operation at an instant, as far as the locks of the file allow. -/
def run (a : Access) (now : Instant) (db : Database) : Operation → Outcome Database Answer
  | .insertBacking t => (insertBacking a db t).map fun _ => .done
  | .backingExists t => (reading a db (·.backingPresent t)).map .flag
  | .deleteBacking t => (deleteBacking a db t).map .report
  | .backingDeleted t => (backingDeleted a db t).map .report
  | .register t => (register a db t).map .entity
  | .ensureRegistered t => ((register a db t).ensuring t).map .entity
  | .lookup t =>
    (reading a db (·.entityPresent t)).map fun b => .found (if b then some t else none)
  | .listEntities => (listEntities a db).map .entities
  | .createSession new => (createSession a now db new).map .session
  | .getSession id => (getSession a db id).map .foundSession
  | .listSessions t => (listSessions a db t).map .sessions
  | .deleteSession id => (deleteSession a db id).map fun _ => .done
  | .deleteAllSessions t => (deleteAllSessions a db t).map .count
  | .verify =>
    ((reading a db Database.orphans).judge fun (es, ss) => violationsOf es ss).map .violations

end OwnershipRegistry.FileStore
