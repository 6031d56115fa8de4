import OwnershipRegistry.Target
import OwnershipRegistry.Time.Instant

/-!
Sessions: records that an entity owns and that go when it goes. Session
identifiers are unique among all sessions, whoever owns them.
-/

namespace OwnershipRegistry

structure SessionId where
  text : String
  deriving DecidableEq, Repr, Inhabited

namespace SessionId

/-- The octets by which session identifiers are ordered. -/
def key (s : SessionId) : List UInt8 := octets s.text

theorem key_injective {a b : SessionId} (h : a.key = b.key) : a = b := by
  cases a; cases b
  exact congrArg mk (octets_injective h)

end SessionId

structure Session where
  id : SessionId
  target : Target
  name : Option String
  createdAt : Instant
  deriving DecidableEq, Repr, Inhabited

def Session.key (s : Session) : List UInt8 := s.id.key

/-- What a session is to be made of; the store adds the instant. -/
structure NewSession where
  id : SessionId
  target : Target
  name : Option String := none
  deriving DecidableEq, Repr, Inhabited

namespace NewSession

def withName (s : NewSession) (name : String) : NewSession := { s with name := some name }

def toSession (s : NewSession) (now : Instant) : Session :=
  ⟨s.id, s.target, s.name, now⟩

end NewSession

end OwnershipRegistry
