import OwnershipRegistry.File.Database

/-!
Outlines: how the tables of the file stand, apart from what they hold. Whoever
uses the file remembers an outline of it and understands statements by that. A
statement that is refused by what is remembered is understood afresh if the file
can be read; only a fault that turns up in following references, other than one
that leads from the table itself to a table that is not there, is told without
another look.
-/

namespace OwnershipRegistry

inductive Standing
  | absent
  | declared
  | unrelated
  deriving DecidableEq, Repr

structure Outline where
  bots : Standing
  users : Standing
  entities : Standing
  sessions : Standing
  ledger : Standing
  deriving DecidableEq, Repr

/-- What a statement is about, as far as it can be understood or not. -/
inductive Statement
  | readBacking (k : Kind)
  | readEntities
  | readSessions
  | auditEntities
  | auditSessions
  | insertBacking (k : Kind)
  | deleteBacking (k : Kind)
  | insertEntity
  | deleteEntity
  | insertSession
  | deleteSession
  | readLedger
  | recordMigration
  | forgetMigration
  | dropTable (name : String)
  | block (name : String)
  /-- A statement that is understood whatever tables there are. -/
  | plain
  deriving DecidableEq, Repr

structure Obstacle where
  fault : Fault
  /-- Whether the file is looked at afresh before the fault is told. -/
  rechecked : Bool := true
  deriving DecidableEq, Repr

/-- An obstacle that turns up in following a reference to the table where it
arises. -/
def Obstacle.followed (o : Obstacle) : Obstacle := { o with rechecked := false }

namespace Outline

def standing (o : Outline) : TableName → Standing
  | .bots => o.bots
  | .users => o.users
  | .entities => o.entities
  | .sessions => o.sessions
  | .ledger => o.ledger

/-- What stands in the way of a statement about a table: it is not there, or has
other columns. -/
def lacking (o : Outline) (n : TableName) (unrelated : Fault) : Option Obstacle :=
  match o.standing n with
  | .declared => none
  | .absent => some { fault := .noTable n.text }
  | .unrelated => some { fault := unrelated }

/-- What stands in the way of a new row for a table. -/
def lackingToFill (o : Outline) (n : TableName) (column : String) : Option Obstacle :=
  o.lacking n (.noColumnToFill n.text column)

/-- What stands in the way of a statement that needs several tables: one that is
nowhere comes before one whose columns are unrelated. -/
def firstLacking (o : Outline) (needed : List (TableName × String)) : Option Obstacle :=
  ((needed.filter fun n => o.standing n.1 == .absent) ++ needed).findSome? fun n =>
    o.lacking n.1 (.noColumn n.2)

/-- Why the references from a table to another cannot be followed. -/
def brokenReference (o : Outline) (child parent : TableName) : Option Obstacle :=
  match o.standing parent with
  | .declared => none
  | .absent => some { fault := .noTable (referent parent.text) }
  | .unrelated =>
    some { fault := .mismatchedKey child.text parent.text, rechecked := false }

/-- Why the references of entities cannot be followed; users are looked for
before bots. -/
def brokenBacking (o : Outline) : Option Obstacle :=
  (o.brokenReference .entities .users).orElse fun _ => o.brokenReference .entities .bots

/-- Why backing records cannot be removed together with the entities that refer
to them. -/
def brokenRemoval (o : Outline) : Option Obstacle :=
  if o.entities = .declared then o.brokenBacking.map Obstacle.followed else none

/-- Why a statement is not understood under some rules, if it is not. -/
def obstacle (o : Outline) (rules : Rules) : Statement → Option Obstacle
  | .readBacking k => o.lacking (.ofKind k) (.noColumn k.idColumn)
  | .readEntities => o.lacking .entities (.noColumn "target_id")
  | .readSessions => o.lacking .sessions (.noColumn "id")
  | .auditEntities =>
    o.firstLacking
      [(.entities, "k.target_id"), (.bots, "b.bot_id"), (.users, "u.user_id")]
  | .auditSessions => o.firstLacking [(.sessions, "s.id"), (.entities, "k.target_id")]
  | .insertBacking k => o.lackingToFill (.ofKind k) k.idColumn
  | .deleteBacking k =>
    (o.lacking (.ofKind k) (.noColumn k.idColumn)).orElse fun _ =>
      if rules.references then o.brokenRemoval else none
  | .insertEntity =>
    (o.lackingToFill .entities "target_id").orElse fun _ =>
      if rules.references then o.brokenBacking else none
  | .deleteEntity =>
    (o.lacking .entities (.noColumn "target_id")).orElse fun _ =>
      if rules.references then o.brokenBacking else none
  | .insertSession =>
    (o.lackingToFill .sessions "id").orElse fun _ =>
      if rules.references then o.brokenReference .sessions .entities else none
  | .deleteSession =>
    (o.lacking .sessions (.noColumn "id")).orElse fun _ =>
      if rules.references then o.brokenReference .sessions .entities else none
  | .readLedger => o.lacking .ledger (.noColumn "applied_at")
  | .recordMigration => o.lackingToFill .ledger "id"
  | .forgetMigration => o.lacking .ledger (.noColumn "id")
  | .dropTable name =>
    match TableName.ofText? name with
    | none => some { fault := .noTable name }
    | some n =>
      match o.standing n with
      | .absent => some { fault := .noTable name }
      | .unrelated => none
      | .declared =>
        if rules.references ∧ n ∈ [.bots, .users] then o.brokenRemoval else none
  | .block name =>
    if (TableName.ofText? name).all fun n => o.standing n == .absent then
      some { fault := .noTable (referent name) }
    else none
  | .plain => none

/-- The fault of a statement by what is remembered of the file, unless the file
has to be looked at before it can be told. -/
def recalled (o : Outline) (readable : Bool) (rules : Rules) (s : Statement) : Option Fault :=
  (o.obstacle rules s).bind fun x => if x.rechecked && readable then none else some x.fault

end Outline

namespace Database

def standing (db : Database) (n : TableName) : Standing :=
  if db.has n then .declared else if db.hasStranger n.text then .unrelated else .absent

def outline (db : Database) : Outline where
  bots := db.standing .bots
  users := db.standing .users
  entities := db.standing .entities
  sessions := db.standing .sessions
  ledger := db.standing .ledger

/-- Why a statement about the file is not understood, if it is not. -/
def refusal (db : Database) (rules : Rules) (s : Statement) : Option Fault :=
  (db.outline.obstacle rules s).map Obstacle.fault

/-- Goes on with a statement if it is understood. -/
def understood {α : Type} (db : Database) (rules : Rules) (s : Statement)
    (f : Except Fault α) : Except Fault α :=
  match db.refusal rules s with
  | some fault => .error fault
  | none => f

end Database

end OwnershipRegistry
