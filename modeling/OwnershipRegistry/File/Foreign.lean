import OwnershipRegistry.File.Change

/-!
Changes that other programs make to the tables of the file. They know the
tables by name and may set rules aside; what they do is one statement at a time.
-/

namespace OwnershipRegistry

/-- A change by another program. Empty columns are none. -/
inductive ForeignChange
  | insertBacking (table : String) (id : Option Cell)
  | deleteBacking (table : String) (id : Option Cell)
  | insertEntity (id kind : Option Cell)
  | deleteEntity (id kind : Option Cell)
  | insertSession (id targetId targetKind name createdAt : Option Cell)
  | deleteSession (id : Option Cell)
  | forgetMigration (id : Option Cell)
  | dropTable (table : String)
  | block (table : String) (change : Change)
  | unblock (table : String) (change : Change)
  deriving DecidableEq, Repr

/-- The kind of the backing records in the table of a name. -/
def Kind.ofTable (table : String) : Except Fault Kind :=
  match Kind.all.find? fun k => sameName (TableName.ofKind k).text table with
  | some k => .ok k
  | none => .error (.noTable table)

namespace ForeignChange

/-- What a change is about, unless it names a table that is none of the
registry's. -/
def statement : ForeignChange → Except Fault Statement
  | insertBacking table _ => (Kind.ofTable table).map .insertBacking
  | deleteBacking table _ => (Kind.ofTable table).map .deleteBacking
  | insertEntity .. => .ok .insertEntity
  | deleteEntity .. => .ok .deleteEntity
  | insertSession .. => .ok .insertSession
  | deleteSession _ => .ok .deleteSession
  | forgetMigration _ => .ok .forgetMigration
  | dropTable table => .ok (.dropTable table)
  | block table _ => .ok (.block table)
  | unblock .. => .ok .plain

/-- Whether a change takes a table away. References are set aside for it. -/
def dropsTable : ForeignChange → Bool
  | dropTable _ => true
  | _ => false

/-- Whether a change concerns the tables themselves and what is blocked on them,
not their rows. -/
def isStructural : ForeignChange → Bool
  | dropTable _ | block .. | unblock .. => true
  | _ => false

end ForeignChange

namespace Database

/-- The file with the changes of a sort to a table blocked. -/
def block (db : Database) (table : String) (c : Change) : Database :=
  match TableName.ofText? table with
  | some n => if db.isBlocked n c then db else { db with blocks := (n, c) :: db.blocks }
  | none => db

/-- The file with the changes of a sort to a table no longer blocked. -/
def unblock (db : Database) (table : String) (c : Change) : Database :=
  { db with blocks := db.blocks.filter fun b => !(sameName b.1.text table && b.2 == c) }

/-- Whether a change finds what it is to bring about, so that it need not write:
what is to be blocked is, or what is to be unblocked is not. -/
def isSettled (db : Database) : ForeignChange → Bool
  | .block table c => (TableName.ofText? table).all fun n => db.isBlocked n c
  | .unblock table c => !db.blocks.any fun b => sameName b.1.text table && b.2 == c
  | _ => false

/-- Takes the record of a migration out of the ledger and counts it. -/
def forget (db : Database) (id : Option Cell) : Except Fault (Database × Nat) :=
  db.understood {} .forgetMigration <|
    let l := db.ledger.getD {}
    let listed := l.applied.rows.countP fun r => id == some (.ofString r.id)
    if 0 < listed && db.isBlocked .ledger .deletion then .error .blocked
    else
      .ok ({ db with
        ledger := some { l with
          applied := l.applied.keep fun r => id != some (.ofString r.id) } }, listed)

/-- Makes a change under the rules that the other program keeps; answers the
number of rows changed, if it changed rows. -/
def change (db : Database) (rules : Rules) :
    ForeignChange → Except Fault (Database × Option Nat)
  | .insertBacking table id => do
    return (← db.insertBacking rules (← Kind.ofTable table) id, some 1)
  | .deleteBacking table id => do
    let (db, n) ← db.deleteBacking rules (← Kind.ofTable table) id
    return (db, some n)
  | .insertEntity id kind => (db.insertEntity rules id kind).map (·, some 1)
  | .deleteEntity id kind => do
    let (db, n) ← db.deleteEntities rules fun r => some r.id == id && some r.kind == kind
    return (db, some n)
  | .insertSession id targetId targetKind name createdAt =>
    (db.insertSession rules id targetId targetKind name createdAt).map (·, some 1)
  | .deleteSession id => do
    let (db, n) ← db.deleteSessions rules fun s => some s.id == id
    return (db, some n)
  | .forgetMigration id => (db.forget id).map fun (db, n) => (db, some n)
  | .dropTable table => (db.dropNamed rules table).map (·, none)
  | .block table c => db.understood rules (.block table) (.ok (db.block table c, none))
  | .unblock table c => .ok (db.unblock table c, none)

end Database

end OwnershipRegistry
