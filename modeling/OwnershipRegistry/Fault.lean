import OwnershipRegistry.Text.Quoted
import OwnershipRegistry.Text.Utf8
import OwnershipRegistry.Time.Scan

/-!
Faults: what can go wrong in the file underneath a store. Each has one wording,
and the number by which other programs know it.
-/

namespace OwnershipRegistry

/-- What went wrong in the file. -/
inductive Fault
  /-- Another program holds a lock that is needed. -/
  | locked
  /-- A transaction has seen the file as it no longer is. -/
  | outdated
  | readOnly
  /-- A transaction where one is open. -/
  | nestedTransaction
  /-- The end of a transaction where none is open. -/
  | noTransaction
  /-- The file holds octets that are no tables. -/
  | notTables
  /-- A path at which no file can be opened. -/
  | cannotOpen (path : String)
  /-- A path with a NUL octet at a position. -/
  | nulInPath (position : Nat)
  | badAuthority (authority : String)
  /-- An address that asks for a keeper of files that there is not. -/
  | noKeeper (name : String)
  /-- An address that asks for a mode of some sort that there is not. -/
  | noMode (sort name : String)
  /-- An address that asks for more than it may. -/
  | modeNotAllowed (name : String)
  | noTable (name : String)
  | noColumn (name : String)
  | noColumnToFill (table column : String)
  /-- A reference to columns that are no key of the table referred to. -/
  | mismatchedKey (child parent : String)
  | tableExists (name : String)
  | indexExists (name : String)
  /-- An index whose name is that of a table. -/
  | nameOfTable (name : String)
  /-- A table whose name is that of an index. -/
  | nameOfIndex (name : String)
  | required (column : String)
  /-- A row that does not meet a condition. -/
  | unmet (condition : String)
  /-- A row that agrees with another in columns beside the key. -/
  | shared (columns : List String)
  | taken (columns : List String)
  | unlistedKind
  | noReferent
  | blocked
  /-- A cell of untyped octets where a text is read. -/
  | notText (index : Nat) (column : String)
  | badText (index : Nat) (fault : Utf8.Fault)
  | badInstant (session text : String) (reason : Refusal)
  /-- A fault known by its wording alone. -/
  | stated (message : String)
  deriving DecidableEq, Repr, Inhabited

namespace Fault

def message : Fault → String
  | locked | outdated => "database is locked"
  | readOnly => "attempt to write a readonly database"
  | nestedTransaction => "cannot start a transaction within a transaction"
  | noTransaction => "cannot rollback - no transaction is active"
  | notTables => "file is not a database"
  | cannotOpen path => "unable to open database file: " ++ path
  | nulInPath position =>
    "nul byte found in provided data at position: " ++ toString position
  | badAuthority authority => "invalid uri authority: " ++ authority
  | noKeeper name => "no such vfs: " ++ name
  | noMode sort name => "no such " ++ sort ++ " mode: " ++ name
  | modeNotAllowed name => "access mode not allowed: " ++ name
  | noTable name => "no such table: " ++ name
  | noColumn name => "no such column: " ++ name
  | noColumnToFill table column => "table " ++ table ++ " has no column named " ++ column
  | mismatchedKey child parent =>
    "foreign key mismatch - \"" ++ child ++ "\" referencing \"" ++ parent ++ "\""
  | tableExists name => "table " ++ name ++ " already exists"
  | indexExists name => "index " ++ name ++ " already exists"
  | nameOfTable name => "there is already a table named " ++ name
  | nameOfIndex name => "there is already an index named " ++ name
  | required column => "NOT NULL constraint failed: " ++ column
  | unmet condition => "CHECK constraint failed: " ++ condition
  | shared columns | taken columns => "UNIQUE constraint failed: " ++ ", ".intercalate columns
  | unlistedKind => "CHECK constraint failed: target_type IN ('bot', 'user')"
  | noReferent => "FOREIGN KEY constraint failed"
  | blocked => "blocked"
  | notText index column =>
    "Invalid column type Blob at index: " ++ toString index ++ ", name: " ++ column
  | badText index fault =>
    "Conversion error from type Text at index: " ++ toString index ++ ", " ++ fault.message
  | badInstant session text reason =>
    "session " ++ session ++ ": bad created_at " ++ quoted text ++ ": " ++ reason.message
  | stated message => message

def code : Fault → Nat
  | modeNotAllowed _ => 3
  | locked => 5
  | readOnly => 8
  | cannotOpen _ => 14
  | notTables => 26
  | unmet _ | unlistedKind => 275
  | noReferent => 787
  | outdated => 517
  | required _ => 1299
  | taken _ => 1555
  | blocked => 1811
  | shared _ => 2067
  | _ => 1

/-- Whether waiting longer might have helped. -/
def isLock (f : Fault) : Bool := f == .locked

/-- Whether a new row breaks a rule of its own table. A program may ask for such a
row to be left out without a word. -/
def isOfRow : Fault → Bool
  | required _ | unmet _ | shared _ | taken _ | unlistedKind => true
  | _ => false

end Fault

end OwnershipRegistry
