import OwnershipRegistry.File.Access
import OwnershipRegistry.File.Outline

/-!
Migrations. Each brings one table of the registry with its indexes; it is
applied in one transaction with its record in the ledger, so it is applied once
and wholly or not at all. They run in a fixed order and the first failure stops
the rest. Tables and indexes share their names: whatever is to be made must find
its name used by neither.
-/

namespace OwnershipRegistry

/-- A step in the building of the file. -/
inductive Migration
  | addEntities
  | addSessions
  deriving DecidableEq, Repr

namespace Migration

def all : List Migration := [addEntities, addSessions]

def id : Migration → String
  | addEntities => "add_known_entities"
  | addSessions => "add_test_sessions"

def description : Migration → String
  | addEntities => "Add known_entities with per-type discriminated foreign keys"
  | addSessions => "Add test_sessions owned by known_entities"

def table : Migration → TableName
  | addEntities => .entities
  | addSessions => .sessions

def indexes (m : Migration) : List Index := m.table.indexes.map fun name => ⟨name, m.table.text⟩

/-- The file with the table of a migration, without rows, and its indexes. -/
def addTable (m : Migration) (db : Database) : Database :=
  let db := { db with indexes := db.indexes ++ m.indexes }
  match m with
  | addEntities => { db with entities := some ∅ }
  | addSessions => { db with sessions := some ∅ }

/-- Why an index of a name cannot be made, if it cannot. -/
def indexFault? (db : Database) (name : String) : Option Fault :=
  if db.hasStranger name then some (.nameOfTable name)
  else if db.hasIndex name then some (.indexExists name)
  else none

/-- Brings the table and its indexes, if their names are free. -/
def up (m : Migration) (a : Access) (db : Database) : Except Fault Database :=
  if db.hasTable m.table then .error (.tableExists m.table.text)
  else if db.hasIndex m.table.text then .error (.nameOfIndex m.table.text)
  else if !a.changes then .error .readOnly
  else match m.table.indexes.findSome? (indexFault? db) with
    | some fault => .error fault
    | none => .ok (m.addTable db)

end Migration

namespace Database

/-- When a migration was applied, if it was. -/
def appliedAt? (db : Database) (m : Migration) : Except Fault (Option String) :=
  db.understood {} .readLedger <|
    let l := db.ledger.getD {}
    match l.form with
    | .untimed => .error (.noColumn "applied_at")
    | _ => .ok ((l.applied.find? (octets m.id)).map LedgerRow.appliedAt)

def record (db : Database) (m : Migration) (now : Instant) : Except Fault Database :=
  db.understood {} .recordMigration <|
    let l := db.ledger.getD {}
    if db.isBlocked .ledger .insertion then .error .blocked
    else match l.form with
      | .annotated column => .error (.required (TableName.ledger.column column))
      | _ =>
        .ok { db with
          ledger := some { l with applied := l.applied.insert ⟨m.id, now.offsetText⟩ } }

/-- Applies a migration in a transaction, unless it was applied; answers whether
it was applied now. -/
def applyMigration (a : Access) (now : Instant) (db : Database) (m : Migration) :
    Outcome Database Bool :=
  if !a.begins then ⟨db, .error (.ofFault .locked), []⟩
  else match db.appliedAt? m with
    | .error f => ⟨db, .error (.ofFault f), []⟩
    | .ok (some appliedAt) => ⟨db, .ok false, [.migrationPresent m.id appliedAt]⟩
    | .ok none =>
      let events := [.applyingMigration m.id m.description]
      match (m.up a db).bind (·.record m now) with
      | .error f => ⟨db, .error (.ofFault f), events⟩
      | .ok db' =>
        if a.commits then ⟨db', .ok true, events⟩
        else ⟨db, .error (.ofFault .locked), events⟩

/-- Applies migrations in order up to the first failure; answers those applied
now. -/
def applyMigrations (a : Access) (now : Instant) (db : Database) :
    List Migration → Outcome Database (List Migration)
  | [] => ⟨db, .ok [], []⟩
  | m :: ms =>
    let first := db.applyMigration a now m
    match first.answer with
    | .error e => ⟨first.store, .error e, first.events⟩
    | .ok applied =>
      let rest := first.store.applyMigrations a now ms
      ⟨rest.store, rest.answer.map fun ids => if applied then m :: ids else ids,
        first.events ++ rest.events⟩

/-- Makes a table that may be there already. Looking is enough if it is; if it is
not, its name must be free and the locks must allow the file with the table. -/
def provide (a : Access) (db : Database) (n : TableName) (made : Database) :
    Except RegistryError Database :=
  if !a.reads then .error (.ofFault .locked)
  else if db.hasTable n then .ok db
  else if db.hasIndex n.text then .error (.ofFault (.nameOfIndex n.text))
  else if !a.changes then .error (.ofFault .readOnly)
  else if a.begins && a.commits then .ok made
  else .error (.ofFault .locked)

/-- Brings the file up to date: a ledger first, then every migration that it
does not list. -/
def migrate (a : Access) (now : Instant) (db : Database) : Outcome Database (List Migration) :=
  match provide a db .ledger { db with ledger := some {} } with
  | .error e => ⟨db, .error e, []⟩
  | .ok db => db.applyMigrations a now Migration.all

end Database

end OwnershipRegistry
