import OwnershipRegistry.Cascade
import OwnershipRegistry.Event

/-!
The operations of a registry and their answers. Both stores run the same
operations; what a run gives is the store afterwards, an answer or an error, and
the events in between.
-/

namespace OwnershipRegistry

inductive Operation
  | insertBacking (target : Target)
  | backingExists (target : Target)
  /-- Deletes a backing record and all that hangs on it. -/
  | deleteBacking (target : Target)
  /-- Removes what hangs on a backing record that has gone away. -/
  | backingDeleted (target : Target)
  | register (target : Target)
  | ensureRegistered (target : Target)
  | lookup (target : Target)
  | listEntities
  | createSession (new : NewSession)
  | getSession (id : SessionId)
  | listSessions (target : Target)
  | deleteSession (id : SessionId)
  | deleteAllSessions (target : Target)
  | verify
  deriving DecidableEq, Repr

inductive Answer
  | done
  | flag (b : Bool)
  | count (n : Nat)
  | report (r : CascadeReport)
  | entity (t : Target)
  | found (t : Option Target)
  | entities (ts : List Target)
  | session (s : Session)
  | foundSession (s : Option Session)
  | sessions (ss : List Session)
  | violations (vs : List Violation)
  deriving DecidableEq, Repr

structure Outcome (σ α : Type) where
  store : σ
  answer : Except RegistryError α
  events : List Event := []

namespace Outcome

variable {σ α β : Type}

/-- The outcome of an operation that changes nothing. -/
def read (store : σ) (answer : Except RegistryError α) : Outcome σ α := ⟨store, answer, []⟩

/-- The outcome with its answer passed through a function. -/
def map (f : α → β) (o : Outcome σ α) : Outcome σ β := ⟨o.store, o.answer.map f, o.events⟩

/-- The outcome whose answer is judged once more. -/
def judge (f : α → Except RegistryError β) (o : Outcome σ α) : Outcome σ β :=
  ⟨o.store, o.answer.bind f, o.events⟩

/-- The outcome with events that came before. -/
def after (events : List Event) (o : Outcome σ α) : Outcome σ α :=
  { o with events := events ++ o.events }

/-- Takes a target that is already registered for a registered one. -/
def ensuring (t : Target) (o : Outcome σ Target) : Outcome σ Target :=
  match o.answer with
  | .error (.duplicateEntity _) => { o with answer := .ok t }
  | _ => o

end Outcome

end OwnershipRegistry
