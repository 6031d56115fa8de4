import OwnershipRegistry.Fault
import OwnershipRegistry.Session

/-!
The errors of the registry. Each is a cause that names the identifier it is
about; only a transient error may be tried again unchanged.
-/

namespace OwnershipRegistry

/-- Why an operation failed. Nothing was changed. -/
inductive RegistryError
  | invalidKind (tag : String)
  | unknownBacking (target : Target)
  | unknownEntity (target : Target)
  | duplicateEntity (target : Target)
  | duplicateSession (id : SessionId)
  | sessionNotFound (id : SessionId)
  /-- A lock was not free in time. -/
  | transient (fault : Fault)
  /-- The file cannot do what it was asked for. -/
  | storage (fault : Fault)
  deriving DecidableEq, Repr, Inhabited

namespace RegistryError

def message : RegistryError → String
  | invalidKind tag => "invalid target type: " ++ quoted tag
  | unknownBacking t => "no backing record for " ++ t.text
  | unknownEntity t => "entity " ++ t.text ++ " is not registered"
  | duplicateEntity t => "entity " ++ t.text ++ " is already registered"
  | duplicateSession id => "session " ++ id.text ++ " already exists"
  | sessionNotFound id => "session " ++ id.text ++ " not found"
  | transient fault => "transient store error: " ++ fault.message
  | storage fault => "store error: " ++ fault.message

def isRetryable : RegistryError → Bool
  | transient _ => true
  | _ => false

/-- A fault that means nothing more to the operation it stopped. -/
def ofFault (f : Fault) : RegistryError := if f.isLock then transient f else storage f

end RegistryError

/-- The target of a written kind, or the error that names what was written. -/
def Target.parse (id tag : String) : Except RegistryError Target :=
  match Target.ofTag? id tag with
  | some t => .ok t
  | none => .error (.invalidKind tag)

end OwnershipRegistry
