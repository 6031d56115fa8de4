import OwnershipRegistry.Error

/-!
Events: what the stores log. An event is what happened; its level, its message
and its fields are read off it. The events that remove or add something name it,
so that the log is a journal of the state.
-/

namespace OwnershipRegistry

inductive Level
  | debug
  | info
  | warn
  deriving DecidableEq, Repr

def Level.text : Level → String
  | debug => "DEBUG"
  | info => "INFO"
  | warn => "WARN"

inductive FieldValue
  | text (s : String)
  | number (n : Nat)
  | flag (b : Bool)
  deriving DecidableEq, Repr

inductive Event
  | backingInserted (target : Target)
  | registering (target : Target)
  | registered (target : Target)
  | hookWhileBacked (target : Target)
  | removedByHook (target : Target) (sessions : Nat)
  | absentAtHook (target : Target)
  | backingDeleted (target : Target) (entityRemoved : Bool) (sessions : Nat)
  | sessionCreated (id : SessionId) (target : Target)
  | sessionDeleted (id : SessionId)
  | sessionsDeleted (target : Target) (count : Nat)
  | lockTimedOut
  | journalModeSet (mode : String)
  | migrationPresent (id appliedAt : String)
  | applyingMigration (id description : String)
  | storeOpened (path : Option String) (migrationsApplied : Nat)
  deriving DecidableEq, Repr

namespace Event

def level : Event → Level
  | registered _ | removedByHook .. | backingDeleted .. | sessionCreated ..
  | applyingMigration .. | storeOpened .. => .info
  | hookWhileBacked _ | lockTimedOut => .warn
  | _ => .debug

def message : Event → String
  | backingInserted _ => "backing record inserted"
  | registering _ => "registering entity"
  | registered _ => "entity registered"
  | hookWhileBacked _ => "deletion hook called while backing record still exists"
  | removedByHook .. => "entity removed by deletion hook"
  | absentAtHook _ => "deletion hook: entity already absent"
  | backingDeleted .. => "backing record deleted"
  | sessionCreated .. => "session created"
  | sessionDeleted _ => "session deleted"
  | sessionsDeleted .. => "sessions deleted for entity"
  | lockTimedOut => "sqlite lock wait timed out"
  | journalModeSet _ => "journal mode set"
  | migrationPresent .. => "migration already applied"
  | applyingMigration .. => "applying migration"
  | storeOpened .. => "registry store opened"

def pathText : Option String → String
  | none => "None"
  | some p => "Some(" ++ quoted p ++ ")"

def fields : Event → List (String × FieldValue)
  | backingInserted t | registering t | hookWhileBacked t | absentAtHook t =>
    [("entity", .text t.text)]
  | registered t => [("target_type", .text t.kind.tag), ("target_id", .text t.id)]
  | removedByHook t sessions =>
    [("entity", .text t.text), ("sessions_removed", .number sessions)]
  | backingDeleted t entityRemoved sessions =>
    [("entity", .text t.text), ("entity_removed", .flag entityRemoved),
      ("sessions_removed", .number sessions)]
  | sessionCreated id t => [("session", .text id.text), ("entity", .text t.text)]
  | sessionDeleted id => [("session", .text id.text)]
  | sessionsDeleted t count => [("entity", .text t.text), ("count", .number count)]
  | lockTimedOut => [("error", .text Fault.locked.message)]
  | journalModeSet mode => [("mode", .text mode)]
  | migrationPresent id appliedAt => [("id", .text id), ("applied_at", .text appliedAt)]
  | applyingMigration id description =>
    [("id", .text id), ("description", .text description)]
  | storeOpened path applied =>
    [("path", .text (pathText path)), ("migrations_applied", .number applied)]

end Event

end OwnershipRegistry
