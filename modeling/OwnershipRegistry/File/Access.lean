import OwnershipRegistry.Operation
import OwnershipRegistry.File.Outline

/-!
Access to the file. Another program may hold a transaction open on it. While it
holds the write lock nobody else begins to write; while it holds every lock
nobody else reads either, unless changes are written ahead to a journal of their
own; while it reads, others write but cannot finish, unless changes are written
ahead. Tables that may only be read let a transaction begin and end that changes
nothing.
-/

namespace OwnershipRegistry

/-- What another program's open transaction holds. -/
inductive Hold
  | read
  | immediate
  | exclusive
  deriving DecidableEq, Repr

/-- Which steps may be taken on the tables now. -/
structure Access where
  reads : Bool := true
  begins : Bool := true
  commits : Bool := true
  /-- Whether the tables may be changed at all. -/
  changes : Bool := true
  deriving DecidableEq, Repr

namespace Access

/-- Nobody else uses the file. -/
def free : Access := {}

/-- The steps that a hold allows, given whether changes are written ahead. -/
def under (writtenAhead : Bool) : Option Hold → Access
  | none => free
  | some .read => { commits := writtenAhead }
  | some .immediate => { begins := false, commits := false }
  | some .exclusive => { reads := writtenAhead, begins := false, commits := false }

/-- A reading of the file. -/
def read {α : Type} (a : Access) (db : Database) (f : Database → Except Fault α) :
    Except RegistryError α :=
  if a.reads then (f db).mapError .ofFault else .error (.ofFault .locked)

/-- A transaction: the write lock is taken before anything is looked at, and
what was done counts only if it can be finished. -/
def write {α : Type} (a : Access) (db : Database)
    (f : Database → Except RegistryError (Database × α)) :
    Except RegistryError (Database × α) :=
  if a.begins then
    match f db with
    | .error e => .error e
    | .ok r => if a.commits then .ok r else .error (.ofFault .locked)
  else .error (.ofFault .locked)

/-- A change to rows, which is understood before it is found that nothing may be
changed. -/
def change {α : Type} (a : Access) (db : Database) (s : Statement) (f : Except Fault α) :
    Except Fault α :=
  if a.changes then f else db.understood {} s (.error .readOnly)

end Access

/-- The events of an answer: a lock that was not free in time is logged. -/
def lockEvents {α : Type} : Except RegistryError α → List Event
  | .error (.transient _) => [.lockTimedOut]
  | _ => []

end OwnershipRegistry
