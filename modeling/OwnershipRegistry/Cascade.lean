import OwnershipRegistry.Session

/-!
Cascades and the audit. A removal goes down the ownership chain, from a backing
record to its entity and from the entity to its sessions, and its report says
what went. A violation is a row whose owner is gone.
-/

namespace OwnershipRegistry

/-- What one removal took away, its sessions in order of their identifiers. -/
structure CascadeReport where
  target : Target
  backingRemoved : Bool
  entityRemoved : Bool
  sessionsRemoved : List SessionId
  deriving DecidableEq, Repr, Inhabited

namespace CascadeReport

/-- The report of a removal that found nothing. -/
def empty (t : Target) : CascadeReport := ⟨t, false, false, []⟩

def isNoop (r : CascadeReport) : Bool :=
  !r.backingRemoved && !r.entityRemoved && r.sessionsRemoved.isEmpty

end CascadeReport

/-- A row that breaks the ownership chain. -/
inductive Violation
  /-- A registered entity without its backing record. -/
  | orphanEntity (target : Target)
  /-- A session whose entity is not registered. -/
  | orphanSession (session : SessionId) (target : Target)
  deriving DecidableEq, Repr, Inhabited

end OwnershipRegistry
