import OwnershipRegistry.Proofs.File.Faults

/-!
Transactions. A transaction that cannot begin or cannot be finished answers the
error of a lock, any other failure is that of its statements, and either way the
file stays as it was.
-/

namespace OwnershipRegistry

open OwnershipRegistry.Except (OnError onError_ok onError_error)

/-- Transactions can begin, change rows and be finished. -/
structure Access.Writes (a : Access) : Prop where
  begins : a.begins = true
  commits : a.commits = true
  changes : a.changes = true

theorem Access.free_writes : Access.free.Writes := ⟨rfl, rfl, rfl⟩

/-- The answer of whoever finds a lock that is not free in time. -/
def RegistryError.busy : RegistryError := .transient .locked

theorem RegistryError.ofFault_locked : RegistryError.ofFault .locked = .busy := rfl

theorem lockEvents_of_lasting {α : Type} {e : RegistryError} (h : e.Lasting) :
    lockEvents (.error e : Except RegistryError α) = [] := by
  cases e with
  | transient fault => cases h
  | _ => rfl

namespace FileStore

variable {α : Type} {a : Access} {db db' : Database}
  {f : Database → Except RegistryError (Database × α)} {events : α → List Event}

theorem writing_of_ok (ha : a.Writes) {x : α} (h : f db = .ok (db', x)) :
    writing a db f events = ⟨db', .ok x, events x⟩ := by
  simp [writing, Access.write, ha.begins, ha.commits, h]

theorem writing_of_error (ha : a.begins = true) {e : RegistryError} (h : f db = .error e) :
    writing a db f events = ⟨db, .error e, lockEvents (α := α) (.error e)⟩ := by
  simp [writing, Access.write, ha, h]

theorem writing_of_not_begins (ha : a.begins = false) :
    writing a db f events = ⟨db, .error .busy, [.lockTimedOut]⟩ := by
  simp [writing, Access.write, ha, RegistryError.ofFault_locked, RegistryError.busy, lockEvents]

theorem writing_of_not_commits (ha : a.begins = true) (hc : a.commits = false)
    {r : Database × α} (h : f db = .ok r) :
    writing a db f events = ⟨db, .error .busy, [.lockTimedOut]⟩ := by
  simp [writing, Access.write, ha, hc, h, RegistryError.ofFault_locked, RegistryError.busy,
    lockEvents]

/-- A transaction that fails leaves the file as it was. -/
theorem store_of_answer_writing {e : RegistryError}
    (h : (writing a db f events).answer = .error e) : (writing a db f events).store = db := by
  unfold writing at h ⊢
  split
  · rename_i hwrite
    rw [hwrite] at h
    cases h
  · rfl

/-- What a transaction leaves behind is what it did, if it could be finished. -/
theorem store_writing (P : Database → Prop) (hdb : P db)
    (hf : ∀ db' x, f db = .ok (db', x) → P db') : P (writing a db f events).store := by
  unfold writing Access.write
  split
  · rename_i db' x h
    split at h
    · split at h
      · cases h
      · rename_i hok
        split at h
        · exact hf db' x (Except.ok.inj h ▸ hok)
        · cases h
    · cases h
  · exact hdb

theorem writing_lasting (hb : a.begins = true) (hc : a.commits = true)
    (hf : OnError RegistryError.Lasting (f db)) :
    OnError RegistryError.Lasting (writing a db f events).answer := by
  cases hrun : f db with
  | error e =>
      rw [writing_of_error hb hrun]
      exact onError_error (hf e hrun)
  | ok r => simp [writing, Access.write, hb, hc, hrun, onError_ok]

theorem reading_lasting {f : Database → Except Fault α} (ha : a.reads = true)
    (hf : OnError Fault.Lasting (f db)) :
    OnError RegistryError.Lasting (reading a db f).answer := by
  have hanswer : (reading a db f).answer = (f db).mapError .ofFault := by
    simp [reading, Access.read, ha]
  rw [hanswer]
  exact hf.mapError fun _ => RegistryError.lasting_ofFault

theorem writing_of_fault (ha : a.begins = true) {fault : Fault} (hfault : fault.Lasting)
    (h : f db = .error (.ofFault fault)) :
    writing a db f events = ⟨db, .error (.ofFault fault), []⟩ := by
  rw [writing_of_error ha h, lockEvents_of_lasting (RegistryError.lasting_ofFault hfault)]

theorem reading_of_ok {f : Database → Except Fault α} {x : α} (ha : a.reads = true)
    (h : f db = .ok x) : reading a db f = ⟨db, .ok x, []⟩ := by
  simp [reading, Access.read, ha, h, Except.mapError_ok, lockEvents]

theorem reading_of_fault {f : Database → Except Fault α} {fault : Fault} (ha : a.reads = true)
    (hfault : fault.Lasting) (h : f db = .error fault) :
    reading a db f = ⟨db, .error (.ofFault fault), []⟩ := by
  have hevents := lockEvents_of_lasting (α := α) (RegistryError.lasting_ofFault hfault)
  simp [reading, Access.read, ha, h, Except.mapError_error, hevents]

/-! ### Changes in a transaction -/

theorem change_eq_ok {s : Statement} {x : Except Fault α} {y : α}
    (h : a.change db s x = .ok y) : x = .ok y := by
  unfold Access.change at h
  split at h
  · exact h
  · exact nomatch (Database.understood_eq_ok.mp h).2

theorem change_of_writes (ha : a.Writes) (s : Statement) (x : Except Fault α) :
    a.change db s x = x := by
  rw [Access.change, ha.changes]
  rfl

theorem change_lasting {s : Statement} {x : Except Fault α} (hx : OnError Fault.Lasting x) :
    OnError Fault.Lasting (a.change db s x) := by
  rw [Access.change]
  split
  · exact hx
  · exact Database.understood_lasting (onError_error (Fault.lasting_of_isLock rfl))

/-- A change that is not understood is told so even where nothing may be
changed. -/
theorem change_of_refusal {s : Statement} {fault : Fault} (h : db.refusal {} s = some fault)
    (x : Except Fault α) : a.change db s (db.understood {} s x) = .error fault := by
  rw [Access.change]
  split
  · exact Database.understood_of_refusal h x
  · exact Database.understood_of_refusal h _

end FileStore

end OwnershipRegistry
