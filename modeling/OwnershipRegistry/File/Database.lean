import OwnershipRegistry.File.Cell
import OwnershipRegistry.File.Schema
import OwnershipRegistry.Session
import OwnershipRegistry.Table
import OwnershipRegistry.Time.Printer

/-!
The contents of the file, whose texts are kept in UTF-8. A table is there in its
declared form or not at all; other programs may have put an unrelated table under
its name and indexes of any name on any table, and may block changes. A table of
backing records may have further columns, with rules for what its rows hold.
-/

namespace OwnershipRegistry

/-- A row of a table of backing records: its identifier, and what it holds in the
further columns of the table, which the registry does not know. -/
structure BackingRow where
  id : Cell
  further : List (Option Cell) := []
  deriving DecidableEq, Repr, Inhabited

/-- A condition on the rows of a table, with its wording. -/
structure RowCheck where
  condition : String
  holds : BackingRow → Bool

/-- Columns in which no two rows of a table agree. -/
structure RowKey where
  columns : List String
  /-- What a row holds in the columns; one that leaves any of them empty agrees with
  no other. -/
  value : BackingRow → Option (List Cell)

/-- Whether a new row agrees with one of those that are there. -/
def RowKey.meets (key : RowKey) (rows : List BackingRow) (new : BackingRow) : Bool :=
  (key.value new).any fun v => rows.any fun r => key.value r == some v

/-- A table of backing records. Its rows have identifiers of their own; whatever else
it asks of them comes from the program that has made it. -/
structure BackingTable where
  rows : Table BackingRow BackingRow.id := ∅
  /-- What the further columns of a row hold if it is given an identifier alone. -/
  defaults : Cell → List (Option Cell) := fun _ => []
  /-- A further column that has to be filled and has no default. -/
  guard : Option String := none
  checks : List RowCheck := []
  /-- The keys beside that of the identifiers. -/
  keys : List RowKey := []
  /-- Whether the rows of other tables to which a row refers are there. -/
  refers : BackingRow → Bool := fun _ => true

namespace BackingTable

def ids (b : BackingTable) : Table Cell id := b.rows.map BackingRow.id fun _ _ => rfl

/-- The row that is given an identifier alone. -/
def newRow (b : BackingTable) (c : Cell) : BackingRow := ⟨c, b.defaults c⟩

def add (b : BackingTable) (c : Cell) : BackingTable :=
  { b with rows := b.rows.insert (b.newRow c) }

def remove (b : BackingTable) (c : Cell) : BackingTable := { b with rows := b.rows.erase c }

/-- The rules that a new row breaks, in the order in which they are looked at. -/
def faults (b : BackingTable) (rules : Rules) (k : Kind) (c : Cell) : List Fault :=
  let column := (TableName.ofKind k).column
  let row := b.newRow c
  (b.guard.map fun name => .required (column name)).toList ++
    (b.checks.filter fun check => rules.kinds && !check.holds row).map
      (fun check => .unmet check.condition) ++
    (b.keys.filter fun key => key.meets b.rows.rows row).map
      (fun key => .shared (key.columns.map column)) ++
    (if b.ids.contains c then [.taken [column k.idColumn]] else []) ++
    (if rules.references && !b.refers row then [.noReferent] else [])

end BackingTable

/-- A registered pair of an identifier and a kind. -/
structure EntityRow where
  id : Cell
  kind : Cell
  deriving DecidableEq, Repr, Inhabited

namespace EntityRow

instance : Ord EntityRow := ⟨compareLex (compareOn kind) (compareOn EntityRow.id)⟩

instance : Std.TransOrd EntityRow :=
  inferInstanceAs (Std.TransCmp (compareLex (compareOn kind) (compareOn EntityRow.id)))

instance : Std.LawfulEqOrd EntityRow where
  eq_of_compare {a b} h := by
    obtain ⟨hk, hi⟩ := compareLex_eq_eq.1 h
    have hk : a.kind = b.kind := Std.LawfulEqOrd.eq_of_compare hk
    have hi : a.id = b.id := Std.LawfulEqOrd.eq_of_compare hi
    cases a; cases b; simp_all

def ofTarget (t : Target) : EntityRow := ⟨.ofString t.id, .ofString t.kind.tag⟩

/-- The identifier of a row as a reference to the backing records of a kind: a
row refers to the records of its own kind alone. -/
def reference (r : EntityRow) (k : Kind) : Option Cell :=
  if r.kind = .ofString k.tag then some r.id else none

end EntityRow

/-- A session as it stands in the file. -/
structure SessionRow where
  id : Cell
  targetId : Cell
  targetKind : Cell
  name : Option Cell
  createdAt : Cell
  deriving DecidableEq, Repr, Inhabited

namespace SessionRow

def owner (r : SessionRow) : EntityRow := ⟨r.targetId, r.targetKind⟩

def ofSession (s : Session) : SessionRow :=
  ⟨.ofString s.id.text, .ofString s.target.id, .ofString s.target.kind.tag,
    s.name.map .ofString, .ofString s.createdAt.offsetText⟩

end SessionRow

/-- A migration that has been applied. -/
structure LedgerRow where
  id : String
  appliedAt : String
  deriving DecidableEq, Repr, Inhabited

/-- The columns of a ledger of migrations. -/
inductive LedgerForm
  | declared
  | untimed
  | annotated (column : String)
  deriving DecidableEq, Repr

structure Ledger where
  applied : Table LedgerRow (octets ∘ LedgerRow.id) := ∅
  form : LedgerForm := .declared
  deriving DecidableEq, Repr

/-- An index and the table that it is on, by their names. -/
structure Index where
  name : String
  table : String
  deriving DecidableEq, Repr

structure Database where
  bots : Option BackingTable := none
  users : Option BackingTable := none
  entities : Option (Table EntityRow id) := none
  sessions : Option (Table SessionRow SessionRow.id) := none
  ledger : Option Ledger := none
  /-- The unrelated tables. -/
  strangers : List String := []
  indexes : List Index := []
  /-- The changes that other programs have blocked. -/
  blocks : List (TableName × Change) := []
  deriving Inhabited

namespace Database

def empty : Database := {}

def backing (db : Database) : Kind → Option BackingTable
  | .bot => db.bots
  | .user => db.users

def setBacking (db : Database) (k : Kind) (b : Option BackingTable) : Database :=
  match k with
  | .bot => { db with bots := b }
  | .user => { db with users := b }

/-- Whether a table is there in its declared form. -/
def has (db : Database) : TableName → Bool
  | .bots => db.bots.isSome
  | .users => db.users.isSome
  | .entities => db.entities.isSome
  | .sessions => db.sessions.isSome
  | .ledger => db.ledger.isSome

def hasStranger (db : Database) (name : String) : Bool := db.strangers.any (sameName name)

def hasTable (db : Database) (n : TableName) : Bool := db.has n || db.hasStranger n.text

def hasIndex (db : Database) (name : String) : Bool := db.indexes.any fun i => sameName name i.name

def isBlocked (db : Database) (n : TableName) (c : Change) : Bool := db.blocks.contains (n, c)

/-- The tables and indexes of the file, each with its sort before its name. -/
def objects (db : Database) : List String :=
  (db.indexes.map (fun i => "index " ++ i.name) ++
    ((TableName.all.filter db.has).map TableName.text ++ db.strangers).map
      ("table " ++ ·)).mergeSort fun a b => (compare (octets a) (octets b)).isLE

/-- Whether two files hold the same, the rules for rows apart, which come and go with
their tables. -/
def holdsAs (db db' : Database) : Bool :=
  db.bots.map BackingTable.rows == db'.bots.map BackingTable.rows &&
    db.users.map BackingTable.rows == db'.users.map BackingTable.rows &&
    db.entities == db'.entities && db.sessions == db'.sessions && db.ledger == db'.ledger &&
    db.strangers == db'.strangers && db.indexes == db'.indexes && db.blocks == db'.blocks

/-- The file without a table, its indexes and the blocks on it. -/
def drop (db : Database) (n : TableName) : Database :=
  let db := { db with
    strangers := db.strangers.filter fun s => !sameName n.text s
    indexes := db.indexes.filter fun i => !sameName n.text i.table
    blocks := db.blocks.filter fun b => b.1 != n }
  match n with
  | .bots => { db with bots := none }
  | .users => { db with users := none }
  | .entities => { db with entities := none }
  | .sessions => { db with sessions := none }
  | .ledger => { db with ledger := none }

end Database

end OwnershipRegistry
