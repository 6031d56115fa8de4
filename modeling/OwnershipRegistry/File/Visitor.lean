import OwnershipRegistry.File.Foreign
import OwnershipRegistry.File.Shared

/-!
What the visitor does to the shared file. It reads the file and changes it, one
statement at a time, in a transaction that it has opened or without one. It
remembers an outline of the file and understands statements by that first. In a
transaction references always hold, and one that has only read cannot change
anything once somebody else has changed the file. A transaction cannot be opened
in another, but asking for one raises what the other holds.
-/

namespace OwnershipRegistry

/-- What a transaction holds after it asks for more; one that may write already
gets no more. -/
def Hold.raised : Hold → Hold → Hold
  | .read, asked => asked
  | held, _ => held

/-- A transaction that asks to hold more of a file that has been changed a number
of times: it must not be behind. -/
def Visit.raise (v : Visit) (version : Nat) (h : Hold) : Except Fault Visit :=
  if v.draft.isNone then .error .notTables
  else if v.hold = .read ∧ v.version ≠ version then .error .outdated
  else .ok { v with hold := v.hold.raised h }

namespace SharedFile

def seen (f : SharedFile) : Option Database :=
  match f.visit with
  | some v => v.draft
  | none => f.database

def look (f : SharedFile) : SharedFile :=
  match f.seen with
  | some db => { f with known := some db.outline }
  | none => f

@[simp] theorem database_look (f : SharedFile) : f.look.database = f.database := by
  unfold look
  split <;> rfl

@[simp] theorem access_look (f : SharedFile) : f.look.access = f.access := by
  unfold look
  split <;> rfl

/-- The visitor opens a transaction. One that is to read looks at the file at
once, and stays open if there are no tables. -/
def beginVisit (f : SharedFile) (h : Hold) : SharedFile × Except Fault Unit :=
  match f.visit with
  | some v =>
    if h = .read then (f, .error .nestedTransaction)
    else
      match v.raise f.version h with
      | .ok v => ({ f with visit := some v }, .error .nestedTransaction)
      | .error fault => (f, .error fault)
  | none =>
    let begun :=
      { f with visit := some { hold := h, draft := f.database, version := f.version } }
    match f.database, h with
    | some _, .read => (begun.look, .ok ())
    | some _, _ => (begun, .ok ())
    | none, .read => (begun, .error .notTables)
    | none, _ => (f, .error .notTables)

/-- The visitor ends its transaction, whose changes come to nothing. -/
def endVisit (f : SharedFile) : SharedFile × Except Fault Unit :=
  match f.visit with
  | none => (f, .error .noTransaction)
  | some v =>
    ({ f with visit := none, known := if v.redrawn then none else f.known }, .ok ())

/-- The rules that hold for a change of the visitor. -/
def rulesFor (f : SharedFile) (rules : Rules) (c : ForeignChange) : Rules :=
  { rules with references := f.visit.isSome || (rules.references && !c.dropsTable) }

/-- The visitor makes a change that it has understood. -/
def write (f : SharedFile) (rules : Rules) (db : Database) (c : ForeignChange) :
    SharedFile × Except Fault (Option Nat) :=
  match f.visit with
  | none =>
    match db.change rules c with
    | .ok (db, n) => (f.put db, .ok n)
    | .error fault => (f, .error fault)
  | some v =>
    match v.raise f.version .immediate with
    | .error fault => (f, .error fault)
    | .ok v =>
      match db.change rules c with
      | .ok (db, n) =>
        let v := { v with draft := some db, redrawn := v.redrawn || c.isStructural }
        ({ f with visit := some v }, .ok n)
      | .error fault => ({ f with visit := some v }, .error fault)

/-- The visitor makes a change; answers the number of rows changed, if it changed
rows. -/
def change (f : SharedFile) (rules : Rules) (c : ForeignChange) :
    SharedFile × Except Fault (Option Nat) :=
  match f.seen, c.statement with
  | none, _ => (f, .error .notTables)
  | some _, .error fault => (f.look, .error fault)
  | some db, .ok s =>
    let rules := f.rulesFor rules c
    match f.known.bind (·.recalled true rules s), db.refusal rules s with
    | some fault, _ => (f, .error fault)
    | none, some fault => (f.look, .error fault)
    | none, none =>
      if db.isSettled c then (f.look, .ok none)
      else
        let (f, answer) := f.write rules db c
        (f.look, answer)

end SharedFile

end OwnershipRegistry
