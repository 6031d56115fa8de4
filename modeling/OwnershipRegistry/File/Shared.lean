import OwnershipRegistry.File.Access

/-!
The file that stores share with each other and with a visitor, another program
that may have one transaction open on it. The transaction sees the file as it was
when it looked, with its own changes, which nobody else sees and which come to
nothing when it ends.
-/

namespace OwnershipRegistry

structure Visit where
  hold : Hold
  /-- The file as the transaction sees it, or none if its octets are no
  tables. -/
  draft : Option Database
  /-- How often the file had been changed when the transaction looked at it. -/
  version : Nat
  /-- Whether the transaction has changed the tables themselves. -/
  redrawn : Bool := false

structure SharedFile where
  path : String
  /-- What the file holds, or none if its octets are no tables. -/
  database : Option Database
  /-- Whether changes are written ahead; once they are, they stay so. -/
  writtenAhead : Bool := false
  version : Nat := 0
  known : Option Outline := none
  visit : Option Visit := none

namespace SharedFile

def access (f : SharedFile) : Access := .under f.writtenAhead (f.visit.map Visit.hold)

/-- The file with what a transaction has made of it, which counts as a change if it
holds anything else. -/
def put (f : SharedFile) (db : Database) : SharedFile :=
  { f with
    database := some db
    version := if f.database.any db.holdsAs then f.version else f.version + 1 }

@[simp] theorem database_put (f : SharedFile) (db : Database) :
    (f.put db).database = some db := rfl

@[simp] theorem access_put (f : SharedFile) (db : Database) :
    (f.put db).access = f.access := rfl

def unreadable (f : SharedFile) : Option Fault :=
  if f.database.isNone then some .notTables
  else if f.access.reads then none
  else some .locked

/-- Sets the changes of the file to be written ahead, which takes every lock
unless they are so already. -/
def setWrittenAhead (f : SharedFile) : Except Fault SharedFile :=
  match f.unreadable with
  | some fault => .error fault
  | none =>
    if f.writtenAhead then .ok f
    else if f.visit.isSome then .error .locked
    else .ok { f with writtenAhead := true }

end SharedFile

end OwnershipRegistry
