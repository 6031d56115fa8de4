import OwnershipRegistry.Operation
import OwnershipRegistry.Table

/-!
The store in memory. It keeps backing records, entities and sessions, and beside
the sessions an index from each owner to the identifiers of its sessions. Every
operation looks before it writes, and the removal of an entity follows the
index.
-/

namespace OwnershipRegistry

structure Holding where
  owner : Target
  sessions : Table SessionId SessionId.key
  deriving DecidableEq, Repr

structure MemoryStore where
  bots : Table String octets := ∅
  users : Table String octets := ∅
  entities : Table Target id := ∅
  sessions : Table Session Session.key := ∅
  /-- The index of the sessions by their owners. -/
  holdings : Table Holding Holding.owner := ∅
  deriving DecidableEq, Repr, Inhabited

namespace MemoryStore

def empty : MemoryStore := {}

def backing (s : MemoryStore) : Kind → Table String octets
  | .bot => s.bots
  | .user => s.users

def setBacking (s : MemoryStore) (k : Kind) (ids : Table String octets) : MemoryStore :=
  match k with
  | .bot => { s with bots := ids }
  | .user => { s with users := ids }

def hasBacking (s : MemoryStore) (t : Target) : Bool :=
  (s.backing t.kind).contains (octets t.id)

def hasEntity (s : MemoryStore) (t : Target) : Bool := s.entities.contains t

def heldBy (s : MemoryStore) (t : Target) : Table SessionId SessionId.key :=
  ((s.holdings.find? t).map Holding.sessions).getD ∅

/-- The index with other identifiers for an owner, who leaves it with the last
of them. -/
def setHeld (s : MemoryStore) (t : Target) (ids : Table SessionId SessionId.key) :
    Table Holding Holding.owner :=
  if ids.rows.isEmpty then s.holdings.erase t else (s.holdings.erase t).insert ⟨t, ids⟩

def sessionsWithout (s : MemoryStore) (ids : Table SessionId SessionId.key) :
    Table Session Session.key :=
  s.sessions.keep fun x => !ids.contains x.key

/-- Removes an entity and, by the index, its sessions. -/
def removeEntity (s : MemoryStore) (t : Target) : MemoryStore × Bool × List SessionId :=
  if s.hasEntity t then
    ({ s with
        entities := s.entities.erase t
        sessions := s.sessionsWithout (s.heldBy t)
        holdings := s.holdings.erase t },
      true, (s.heldBy t).rows)
  else (s, false, [])

def insertBacking (s : MemoryStore) (t : Target) : Outcome MemoryStore Unit :=
  if s.hasBacking t then .read s (.ok ())
  else
    ⟨s.setBacking t.kind ((s.backing t.kind).insert t.id), .ok (), [.backingInserted t]⟩

/-- Removes a backing record, its entity and the sessions of the entity. -/
def deleteBacking (s : MemoryStore) (t : Target) : Outcome MemoryStore CascadeReport :=
  let backed := s.hasBacking t
  let s := s.setBacking t.kind ((s.backing t.kind).erase (octets t.id))
  let (s, entityRemoved, sessions) := s.removeEntity t
  let report : CascadeReport := ⟨t, backed, entityRemoved, sessions⟩
  ⟨s, .ok report,
    if report.isNoop then [] else [.backingDeleted t entityRemoved sessions.length]⟩

/-- Removes an entity whose backing record has gone away, with its sessions. -/
def backingDeleted (s : MemoryStore) (t : Target) : Outcome MemoryStore CascadeReport :=
  let (s', entityRemoved, sessions) := s.removeEntity t
  ⟨s', .ok ⟨t, false, entityRemoved, sessions⟩,
    (if s.hasBacking t then [.hookWhileBacked t] else []) ++
      [if entityRemoved then .removedByHook t sessions.length else .absentAtHook t]⟩

/-- Registers a target that has a backing record and is not registered. -/
def register (s : MemoryStore) (t : Target) : Outcome MemoryStore Target :=
  if s.hasEntity t then .read s (.error (.duplicateEntity t))
  else if !s.hasBacking t then .read s (.error (.unknownBacking t))
  else ⟨{ s with entities := s.entities.insert t }, .ok t, [.registered t]⟩

/-- Makes a session of a registered target under an identifier that is free. -/
def createSession (s : MemoryStore) (now : Instant) (new : NewSession) :
    Outcome MemoryStore Session :=
  if !s.hasEntity new.target then .read s (.error (.unknownEntity new.target))
  else if s.sessions.contains new.id.key then .read s (.error (.duplicateSession new.id))
  else
    ⟨{ s with
        sessions := s.sessions.insert (new.toSession now)
        holdings := s.setHeld new.target ((s.heldBy new.target).insert new.id) },
      .ok (new.toSession now), [.sessionCreated new.id new.target]⟩

/-- The sessions that the index has for an owner, in order of their
identifiers. -/
def listSessions (s : MemoryStore) (t : Target) : List Session :=
  (s.heldBy t).rows.filterMap fun id => s.sessions.find? id.key

def deleteSession (s : MemoryStore) (id : SessionId) : Outcome MemoryStore Unit :=
  match s.sessions.find? id.key with
  | none => .read s (.error (.sessionNotFound id))
  | some x =>
    ⟨{ s with
        sessions := s.sessions.erase id.key
        holdings := s.setHeld x.target ((s.heldBy x.target).erase id.key) },
      .ok (), [.sessionDeleted id]⟩

def deleteAllSessions (s : MemoryStore) (t : Target) : Outcome MemoryStore Nat :=
  let ids := s.heldBy t
  ⟨{ s with sessions := s.sessionsWithout ids, holdings := s.holdings.erase t },
    .ok ids.size, [.sessionsDeleted t ids.size]⟩

/-- Every row that breaks the ownership chain: entities first, then sessions. -/
def violations (s : MemoryStore) : List Violation :=
  (s.entities.rows.filter fun t => !s.hasBacking t).map .orphanEntity ++
    (s.sessions.rows.filter fun x => !s.hasEntity x.target).map
      fun x => .orphanSession x.id x.target

def run (s : MemoryStore) (now : Instant) : Operation → Outcome MemoryStore Answer
  | .insertBacking t => (s.insertBacking t).map fun _ => .done
  | .backingExists t => .read s (.ok (.flag (s.hasBacking t)))
  | .deleteBacking t => (s.deleteBacking t).map .report
  | .backingDeleted t => (s.backingDeleted t).map .report
  | .register t => (s.register t).map .entity
  | .ensureRegistered t => ((s.register t).ensuring t).map .entity
  | .lookup t => .read s (.ok (.found (if s.hasEntity t then some t else none)))
  | .listEntities => .read s (.ok (.entities s.entities.rows))
  | .createSession new => (s.createSession now new).map .session
  | .getSession id => .read s (.ok (.foundSession (s.sessions.find? id.key)))
  | .listSessions t => .read s (.ok (.sessions (s.listSessions t)))
  | .deleteSession id => (s.deleteSession id).map fun _ => .done
  | .deleteAllSessions t => (s.deleteAllSessions t).map .count
  | .verify => .read s (.ok (.violations s.violations))

end MemoryStore

end OwnershipRegistry
