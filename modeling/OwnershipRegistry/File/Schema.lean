import OwnershipRegistry.Target

/-!
The tables of the file by their names, the columns that hold the identifiers of
backing records, and the rules that come with the tables. Names of tables are
compared without regard to the case of their letters.
-/

namespace OwnershipRegistry

inductive TableName
  | bots
  | users
  | entities
  | sessions
  | ledger
  deriving DecidableEq, Repr

/-- The name of a table where another table or a rule refers to it. -/
def referent (table : String) : String := "main." ++ table

namespace TableName

def all : List TableName := [bots, users, entities, sessions, ledger]

def text : TableName → String
  | bots => "bots"
  | users => "users"
  | entities => "known_entities"
  | sessions => "test_sessions"
  | ledger => "_migrations_applied"

def column (n : TableName) (c : String) : String := n.text ++ "." ++ c

def indexes : TableName → List String
  | entities => ["idx_known_entities_bot_fk", "idx_known_entities_user_fk"]
  | sessions => ["idx_test_sessions_target"]
  | _ => []

def ofKind : Kind → TableName
  | .bot => bots
  | .user => users

end TableName

def Kind.idColumn : Kind → String
  | .bot => "bot_id"
  | .user => "user_id"

/-- Whether two names are the same but for the case of ASCII letters. -/
def sameName (a b : String) : Bool := a.toList.map Char.toLower == b.toList.map Char.toLower

def TableName.ofText? (s : String) : Option TableName :=
  all.find? fun n => sameName n.text s

/-- The rules that a program may set aside for its own changes. -/
structure Rules where
  /-- References hold and removals follow them. -/
  references : Bool := true
  /-- Conditions on new rows hold, and kinds are among the kinds. -/
  kinds : Bool := true
  deriving DecidableEq, Repr

inductive Change
  | insertion
  | deletion
  deriving DecidableEq, Repr

end OwnershipRegistry
