import OwnershipRegistry.File.Address

/-!
Places. A path names a private place, which no other store can reach, a place in
memory that stores reach by a common name, or the file that is shared.
-/

namespace OwnershipRegistry

structure CommonName where
  keeper : Keeper
  name : List UInt8
  /-- Whether stores share the tables among themselves, and not through their
  keeper. -/
  cached : Bool
  deriving DecidableEq, Repr

inductive Place
  /-- Private to one store, in a fixed journal mode. -/
  | sealed (journal : String) (changes : Bool)
  /-- In memory, there as long as a store has it open. -/
  | common (name : CommonName) (changes : Bool)
  | shared
  deriving DecidableEq, Repr

def memoryJournal : String := "memory"

def namelessJournal : String := "delete"

def memoryPath : String := ":memory:"

/-- Whether the name of an address begins at a root and goes on from there. -/
def Address.isRooted (a : Address) : Bool :=
  match a.name with
  | first :: _ :: _ => first == mark '/' || first == mark '\\'
  | _ => false

/-- The place that an address names, apart from files. The keeper in memory
shares what has a rooted name among all who ask for it. -/
def Address.place? (a : Address) : Option Place :=
  let changes := a.mode != .readOnly
  let inMemory :=
    if a.cached then .common ⟨a.keeper, a.name, true⟩ changes
    else .sealed memoryJournal changes
  if a.name = [] then
    some (.sealed (if a.mode = .memory then memoryJournal else namelessJournal) changes)
  else if a.mode = .memory ∨ a.name = octets memoryPath then some inMemory
  else if a.keeper = .memory then
    some (if a.isRooted then .common ⟨.memory, a.name, false⟩ changes else inMemory)
  else none

/-- The place that a path names beside the path of the shared file. -/
def Place.ofPath (file path : String) : Except Fault Place :=
  match (octets path).findIdx? (· == 0) with
  | some i => .error (.nulInPath i)
  | none =>
    if path = "" then .ok (.sealed namelessJournal true)
    else if path = memoryPath then .ok (.sealed memoryJournal true)
    else if path = file then .ok .shared
    else
      match Address.ofPath? path with
      | none => .error (.cannotOpen path)
      | some a => a.bind fun a => (a.place?.map .ok).getD (.error (.cannotOpen path))

end OwnershipRegistry
