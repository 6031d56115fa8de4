import OwnershipRegistry.Config
import OwnershipRegistry.File.Migration
import OwnershipRegistry.File.Shared

/-!
Opening a store. Once the place is found and the time to wait for locks is set,
the journal comes first, then the tables of the backing records and the
migrations.
-/

namespace OwnershipRegistry

inductive OpenFailure
  | refused (e : RegistryError)
  /-- The time to wait for locks is longer than can be waited; the program
  stops. -/
  | timeoutTooLong
  deriving DecidableEq, Repr

def longestTimeoutMs : UInt64 := 2147483647

namespace Database

/-- What a file holds before its first use if no program has kept tables in its
octets: nothing if it is too short to hold anything, and otherwise what are no
tables. Octets that a program has kept tables in are not read here. -/
def ofOctets? (os : List UInt8) : Option Database := if os.length ≤ 1 then some .empty else none

/-- Makes the tables of backing records, one after the other. One that is there stays,
and one that cannot be made leaves those before it. -/
def provideBacking (a : Access) (db : Database) : List Kind → Outcome Database Unit
  | [] => ⟨db, .ok (), []⟩
  | k :: ks =>
    match provide a db (.ofKind k) (db.setBacking k (some {})) with
    | .error e => ⟨db, .error e, []⟩
    | .ok db => db.provideBacking a ks

/-- Finds or makes all that a store needs. -/
def prepare (a : Access) (now : Instant) (c : StoreConfig) (db : Database) :
    Outcome Database (List Migration) :=
  let start := db.provideBacking a (if c.provisionBacking then Kind.all else [])
  match start.answer with
  | .error e => ⟨start.store, .error e, lockEvents start.answer⟩
  | .ok () =>
    let o := start.store.migrate a now
    match o.answer with
    | .ok applied => { o with events := o.events ++ [.storeOpened c.path applied.length] }
    | .error _ => { o with events := o.events ++ lockEvents o.answer }

/-- Opens a store on tables in memory, whose journal mode is fixed: asking for
another is answered with theirs. -/
def openStore (a : Access) (now : Instant) (c : StoreConfig) (journal : Option String)
    (db : Database) : Outcome Database (List Migration) :=
  (db.prepare a now c).after
    ((journal.filter fun _ => c.writeAhead).toList.map .journalModeSet)

end Database

def SharedFile.openStore (f : SharedFile) (now : Instant) (c : StoreConfig) :
    Outcome SharedFile (List Migration) :=
  let failed (f : SharedFile) (fault : Fault) : Outcome SharedFile (List Migration) :=
    let answer := .error (.ofFault fault)
    ⟨f, answer, lockEvents answer⟩
  match if c.writeAhead then f.setWrittenAhead else .ok f with
  | .error fault => failed f fault
  | .ok f =>
    match f.database with
    | none => failed f .notTables
    | some db =>
      let o := (db.prepare f.access now c).after
        (if c.writeAhead then [.journalModeSet "wal"] else [])
      { o with store := f.put o.store }

end OwnershipRegistry
