import OwnershipRegistry.File.Outline

/-!
Changes to the rows of the file, under the rules that come with its tables. A
change has to be understood first: its table and the tables that references of
its table lead to are there. A new row meets, in this order: a block, required
columns, conditions such as the list of kinds, the keys, and last the references.
The removal of a row takes along the rows that refer to it. A change that fails
leaves the file as it was.
-/

namespace OwnershipRegistry

namespace Database

/-! ### Removal -/

def removeSessions (db : Database) (p : SessionRow → Bool) : Except Fault Database :=
  match db.sessions with
  | none => .ok db
  | some rows =>
    if rows.rows.any p && db.isBlocked .sessions .deletion then .error .blocked
    else .ok { db with sessions := some (rows.keep fun r => !p r) }

/-- Removes the entities that pass a test, and the sessions that refer to
them. -/
def removeEntities (db : Database) (rules : Rules) (p : EntityRow → Bool) :
    Except Fault Database :=
  match db.entities with
  | none => .ok db
  | some rows =>
    if rows.rows.any p && db.isBlocked .entities .deletion then .error .blocked
    else
      let rest := { db with entities := some (rows.keep fun r => !p r) }
      if rules.references then
        rest.removeSessions fun s => p s.owner && rows.contains s.owner
      else .ok rest

/-- Deletes the sessions that pass a test and counts them. -/
def deleteSessions (db : Database) (rules : Rules) (p : SessionRow → Bool) :
    Except Fault (Database × Nat) :=
  db.understood rules .deleteSession
    ((db.removeSessions p).map (·, (db.sessions.getD ∅).rows.countP p))

/-- Deletes the entities that pass a test and counts them. -/
def deleteEntities (db : Database) (rules : Rules) (p : EntityRow → Bool) :
    Except Fault (Database × Nat) :=
  db.understood rules .deleteEntity
    ((db.removeEntities rules p).map (·, (db.entities.getD ∅).rows.countP p))

/-- Deletes the backing records of a kind under an identifier, with the entities
that refer to them; an empty identifier is that of none. -/
def deleteBacking (db : Database) (rules : Rules) (k : Kind) (id : Option Cell) :
    Except Fault (Database × Nat) :=
  db.understood rules (.deleteBacking k) <|
    let b := (db.backing k).getD {}
    match id.filter fun id => b.ids.contains id with
    | none => .ok (db, 0)
    | some id =>
      if db.isBlocked (.ofKind k) .deletion then .error .blocked
      else
        let rest := db.setBacking k (some (b.remove id))
        if rules.references then
          (rest.removeEntities rules fun r => r.reference k == some id).map (·, 1)
        else .ok (rest, 1)

/-- Removes the entities that refer to backing records of a kind. -/
def removeBacked (db : Database) (rules : Rules) (k : Kind) : Except Fault Database :=
  db.removeEntities rules fun r => (r.reference k).any ((db.backing k).getD {}).ids.contains

/-- Whether an entity refers to a table that is not there, and none of the
sessions refers to the entity. -/
def isStranded (db : Database) (r : EntityRow) : Bool :=
  (Kind.all.any fun k => (r.reference k).isSome && !db.hasTable (.ofKind k)) &&
    db.sessions.any fun sessions => !sessions.rows.any fun s => s.owner == r

/-- Removes what refers to the rows of a table. A stranded entity stands in the
way of its own table. -/
def removeReferring (db : Database) (rules : Rules) : TableName → Except Fault Database
  | .bots => db.removeBacked rules .bot
  | .users => db.removeBacked rules .user
  | .entities => do
    let rest ← db.removeSessions fun s => (db.entities.getD ∅).contains s.owner
    if (db.entities.getD ∅).rows.any db.isStranded then throw .noReferent
    return rest
  | _ => .ok db

/-- The file without the table of a name. If references hold, what refers to its
rows goes before it; blocks on the table itself do not count. -/
def dropNamed (db : Database) (rules : Rules) (name : String) : Except Fault Database :=
  db.understood rules (.dropTable name) <|
    match TableName.ofText? name with
    | none => .ok db
    | some n =>
      if rules.references then (db.removeReferring rules n).map (·.drop n)
      else .ok (db.drop n)

/-! ### Addition -/

def insertBacking (db : Database) (rules : Rules) (k : Kind) (id : Option Cell) :
    Except Fault Database :=
  let name := TableName.ofKind k
  db.understood rules (.insertBacking k) <|
    let b := (db.backing k).getD {}
    if db.isBlocked name .insertion then .error .blocked
    else match id with
      | none => .error (.required (name.column k.idColumn))
      | some id =>
        match b.faults rules k id with
        | fault :: _ => .error fault
        | [] => .ok (db.setBacking k (some (b.add id)))

def isBacked (db : Database) (r : EntityRow) : Bool :=
  Kind.all.all fun k =>
    match r.reference k with
    | none => true
    | some id => (db.backing k).any fun b => b.ids.contains id

def insertEntity (db : Database) (rules : Rules) (id kind : Option Cell) :
    Except Fault Database :=
  db.understood rules .insertEntity <|
    let rows := db.entities.getD ∅
    if db.isBlocked .entities .insertion then .error .blocked
    else match id, kind with
      | none, _ => .error (.required (TableName.entities.column "target_id"))
      | _, none => .error (.required (TableName.entities.column "target_type"))
      | some id, some kind =>
        let row : EntityRow := ⟨id, kind⟩
        if rules.kinds && !Kind.all.any fun k => kind == .ofString k.tag then
          .error .unlistedKind
        else if rows.contains row then
          .error (.taken
            [TableName.entities.column "target_id", TableName.entities.column "target_type"])
        else if rules.references && !db.isBacked row then .error .noReferent
        else .ok { db with entities := some (rows.insert row) }

def hasEntityRow (db : Database) (r : EntityRow) : Bool :=
  db.entities.any fun rows => rows.contains r

def insertSession (db : Database) (rules : Rules)
    (id targetId targetKind name createdAt : Option Cell) : Except Fault Database :=
  let column := TableName.sessions.column
  db.understood rules .insertSession <|
    let rows := db.sessions.getD ∅
    if db.isBlocked .sessions .insertion then .error .blocked
    else match id, targetId, targetKind, createdAt with
      | none, _, _, _ => .error (.required (column "id"))
      | _, none, _, _ => .error (.required (column "target_id"))
      | _, _, none, _ => .error (.required (column "target_type"))
      | _, _, _, none => .error (.required (column "created_at"))
      | some id, some targetId, some targetKind, some createdAt =>
        let row : SessionRow := ⟨id, targetId, targetKind, name, createdAt⟩
        if rows.contains id then .error (.taken [column "id"])
        else if rules.references && !db.hasEntityRow row.owner then .error .noReferent
        else .ok { db with sessions := some (rows.insert row) }

end Database

end OwnershipRegistry
