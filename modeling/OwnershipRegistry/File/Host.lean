import OwnershipRegistry.File.Opening
import OwnershipRegistry.File.Place
import OwnershipRegistry.File.Recall
import OwnershipRegistry.MemoryStore

/-!
A host of stores. Any number of stores are open at once under numbers: in memory,
on tables of their own, on tables that they reach by a common name, and on one
shared file, which a visitor changes and locks beside them.
-/

namespace OwnershipRegistry

inductive Handle
  | memory (store : MemoryStore)
  /-- A store whose tables are its own. -/
  | sealed (database : Database)
  /-- A store on tables in memory under a common name. -/
  | common (name : CommonName) (access : Access)
  /-- A store on the shared file, and what it remembers of it. -/
  | shared (known : Outline)

/-- The common name under which a store reaches its tables. -/
def Handle.commonName? : Handle → Option CommonName
  | common name _ => some name
  | _ => none

/-- The stores that are open, and what some of them share. -/
structure Host where
  file : SharedFile
  /-- The tables in memory under common names. -/
  commons : List (CommonName × Database) := []
  handles : List (Nat × Handle) := []

namespace Host

def handle? (h : Host) (n : Nat) : Option Handle := h.handles.lookup n

def setHandle (h : Host) (n : Nat) (store : Handle) : Host :=
  { h with handles := (n, store) :: h.handles.filter fun p => p.1 != n }

def setCommon (h : Host) (name : CommonName) (db : Database) : Host :=
  { h with commons := (name, db) :: h.commons.filter fun p => p.1 != name }

/-- Closes a store; answers whether it was open. Tables in memory are gone with
the last store that has them open. -/
def close (h : Host) (n : Nat) : Host × Bool :=
  let others := h.handles.filter fun p => p.1 != n
  ({ h with
      handles := others
      commons := h.commons.filter fun c =>
        others.any fun p => p.2.commonName? == some c.1 },
    (h.handle? n).isSome)

def openMemory (h : Host) (n : Nat) : Host := (h.close n).1.setHandle n (.memory .empty)

/-! ### Opening -/

/-- How stores reach tables under a common name. Tables that stores share among
themselves may be changed by all of them once they are there. -/
def commonAccess (h : Host) (name : CommonName) (changes : Bool) : Access :=
  { changes := changes || (name.cached && (h.commons.lookup name).isSome) }

def openAt (h : Host) (now : Instant) (n : Nat) (c : StoreConfig) (place : Option Place) :
    Outcome Host Unit :=
  match place with
  | none => ofSealed none true
  | some (.sealed journal changes) => ofSealed (some journal) changes
  | some (.common name changes) =>
    let a := h.commonAccess name changes
    let o := ((h.commons.lookup name).getD .empty).openStore a now c (some memoryJournal)
    let opened := (h.setCommon name o.store).setHandle n (.common name a)
    ⟨if o.answer.isOk then opened else h, o.answer.map fun _ => (), o.events⟩
  | some .shared =>
    let o := h.file.openStore now c
    let h := { h with file := o.store }
    let opened := h.setHandle n (.shared ((o.store.database.getD .empty).outline))
    ⟨if o.answer.isOk then opened else h, o.answer.map fun _ => (), o.events⟩
where
  /-- Opens a store whose tables are its own. -/
  ofSealed (journal : Option String) (changes : Bool) : Outcome Host Unit :=
    let o := Database.empty.openStore { changes := changes } now c journal
    ⟨if o.answer.isOk then h.setHandle n (.sealed o.store) else h, o.answer.map fun _ => (),
      o.events⟩

/-- Opens a store as a configuration says, after closing the one that had its
number. -/
def openStore (h : Host) (now : Instant) (n : Nat) (c : StoreConfig) :
    Host × Except OpenFailure Unit × List Event :=
  let h := (h.close n).1
  match c.path.mapM (Place.ofPath h.file.path) with
  | .error fault => (h, .error (.refused (.ofFault fault)), [])
  | .ok place =>
    if longestTimeoutMs < c.busyTimeoutMs then (h, .error .timeoutTooLong, [])
    else
      let o := h.openAt now n c place
      (o.store, o.answer.mapError .refused, o.events)

/-! ### Operations -/

/-- Runs an operation on a store; no store, no outcome. -/
def run (h : Host) (now : Instant) (n : Nat) (op : Operation) : Option (Outcome Host Answer) :=
  (h.handle? n).map fun
    | .memory s =>
      let o := s.run now op
      { o with store := h.setHandle n (.memory o.store) }
    | .sealed db =>
      let o := FileStore.run .free now db op
      { o with store := h.setHandle n (.sealed o.store) }
    | .common name a =>
      let o := FileStore.run a now ((h.commons.lookup name).getD .empty) op
      { o with store := h.setCommon name o.store }
    | .shared known =>
      let (o, known) :=
        FileStore.runKnowing known h.file.access now (h.file.database.getD .empty) op
      { o with
        store := ({ h with file := h.file.put o.store } : Host).setHandle n (.shared known) }

/-- Runs an operation a number of times, as callers at once do, and lists the
answers. -/
def race (h : Host) (now : Instant) (n : Nat) (op : Operation) :
    Nat → Option (Host × List (Except RegistryError Answer))
  | 0 => some (h, [])
  | times + 1 => do
    let o ← h.run now n op
    let (h, answers) ← o.store.race now n op times
    return (h, o.answer :: answers)

end Host

end OwnershipRegistry
