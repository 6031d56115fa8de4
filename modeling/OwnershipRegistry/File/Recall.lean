import OwnershipRegistry.File.Store

/-!
Operations by an outline that is remembered. A store on the shared file remembers
how the tables stood when it last looked. The first statement of an operation is
understood by that: a fault that is told without another look ends the operation;
otherwise the operation runs on the file as it is, and the store remembers the
file anew if it could look at it.
-/

namespace OwnershipRegistry

namespace Operation

def takesLock : Operation → Bool
  | insertBacking _ | deleteBacking _ | backingDeleted _ | register _ | ensureRegistered _
  | createSession _ | deleteSession _ | deleteAllSessions _ => true
  | _ => false

def firstStatement : Operation → Statement
  | insertBacking t => .insertBacking t.kind
  | backingExists t | backingDeleted t => .readBacking t.kind
  | deleteBacking _ | lookup _ | listEntities => .readEntities
  | register _ | ensureRegistered _ => .insertEntity
  | createSession _ => .insertSession
  | getSession _ | listSessions _ => .readSessions
  | deleteSession _ | deleteAllSessions _ => .deleteSession
  | verify => .auditEntities

/-- What is logged before the first statement of an operation. -/
def announcement : Operation → List Event
  | register t | ensureRegistered t => [.registering t]
  | _ => []

end Operation

namespace FileStore

/-- Runs an operation of a store that remembers an outline of the file; gives
what it remembers afterwards too. -/
def runKnowing (known : Outline) (a : Access) (now : Instant) (db : Database)
    (op : Operation) : Outcome Database Answer × Outline :=
  let starts := !op.takesLock || a.begins
  match if starts then known.recalled a.reads {} op.firstStatement else none with
  | some fault => (⟨db, .error (.ofFault fault), op.announcement⟩, known)
  | none => (run a now db op, if starts && a.reads then db.outline else known)

end FileStore

end OwnershipRegistry
