import OwnershipRegistry.Proofs.File.Recall

/-!
Faults of statements. A statement fails because it is not understood, because a
row breaks a rule or because a cell cannot be read, and never because of a lock:
locks are met only where a transaction begins or is finished.
-/

namespace OwnershipRegistry

/-- A fault that is not that of a lock. -/
def Fault.Lasting (f : Fault) : Prop := f ≠ .locked

/-- An error that would not go away by itself. -/
def RegistryError.Lasting (e : RegistryError) : Prop := e.isRetryable = false

theorem Fault.lasting_of_isLock {f : Fault} (h : f.isLock = false) : f.Lasting :=
  beq_eq_false_iff_ne.mp h

theorem Fault.lasting_of_isOfRow {f : Fault} (h : f.isOfRow = true) : f.Lasting := by
  rintro rfl
  cases h

theorem RegistryError.ofFault_of_lasting {f : Fault} (h : f.Lasting) : ofFault f = .storage f := by
  have hlock : f.isLock = false := beq_eq_false_iff_ne.mpr h
  rw [ofFault, hlock]
  rfl

theorem RegistryError.lasting_ofFault {f : Fault} (h : f.Lasting) : (ofFault f).Lasting := by
  rw [ofFault_of_lasting h]
  rfl

/-! ### Understanding -/

/-- A fault of a statement about tables that are not there or are unrelated. -/
inductive Fault.OfTables : Fault → Prop
  | noTable (name : String) : OfTables (.noTable name)
  | noColumn (name : String) : OfTables (.noColumn name)
  | noColumnToFill (table column : String) : OfTables (.noColumnToFill table column)
  | mismatchedKey (child parent : String) : OfTables (.mismatchedKey child parent)

theorem Fault.OfTables.lasting {f : Fault} (h : f.OfTables) : f.Lasting := by
  cases h <;> exact lasting_of_isLock rfl

namespace Outline

variable {o : Outline} {x : Obstacle}

theorem ofTables_of_lacking {n : TableName} {f : Fault} (h : o.lacking n f = some x)
    (hf : f.OfTables) : x.fault.OfTables := by
  rw [lacking] at h
  split at h
  · cases h
  · obtain rfl := Option.some.inj h
    exact .noTable _
  · obtain rfl := Option.some.inj h
    exact hf

theorem ofTables_of_firstLacking {needed : List (TableName × String)}
    (h : o.firstLacking needed = some x) : x.fault.OfTables := by
  obtain ⟨n, -, hn⟩ := List.exists_of_findSome?_eq_some h
  exact ofTables_of_lacking hn (.noColumn _)

theorem ofTables_of_brokenReference {child parent : TableName}
    (h : o.brokenReference child parent = some x) : x.fault.OfTables := by
  rw [brokenReference] at h
  split at h
  · cases h
  · obtain rfl := Option.some.inj h
    exact .noTable _
  · obtain rfl := Option.some.inj h
    exact .mismatchedKey _ _

theorem ofTables_of_brokenBacking (h : o.brokenBacking = some x) : x.fault.OfTables := by
  rcases Database.orElse_eq_some h with h | h
  · exact ofTables_of_brokenReference h
  · exact ofTables_of_brokenReference h

theorem ofTables_of_brokenRemoval (h : o.brokenRemoval = some x) : x.fault.OfTables := by
  obtain ⟨y, hy, rfl⟩ := Option.map_eq_some_iff.mp (Option.ite_none_right_eq_some.mp h).2
  exact ofTables_of_brokenBacking (x := y) hy

/-- Every obstacle is about tables that are not there or are unrelated. -/
theorem ofTables_of_obstacle {rules : Rules} {s : Statement}
    (h : o.obstacle rules s = some x) : x.fault.OfTables := by
  cases s with
  | readBacking | readEntities | readSessions | readLedger | forgetMigration =>
      exact ofTables_of_lacking h (.noColumn _)
  | insertBacking | recordMigration => exact ofTables_of_lacking h (.noColumnToFill _ _)
  | auditEntities | auditSessions => exact ofTables_of_firstLacking h
  | deleteBacking =>
      rcases Database.orElse_eq_some h with h | h
      · exact ofTables_of_lacking h (.noColumn _)
      · exact ofTables_of_brokenRemoval (Option.ite_none_right_eq_some.mp h).2
  | insertEntity =>
      rcases Database.orElse_eq_some h with h | h
      · exact ofTables_of_lacking h (.noColumnToFill _ _)
      · exact ofTables_of_brokenBacking (Option.ite_none_right_eq_some.mp h).2
  | deleteEntity =>
      rcases Database.orElse_eq_some h with h | h
      · exact ofTables_of_lacking h (.noColumn _)
      · exact ofTables_of_brokenBacking (Option.ite_none_right_eq_some.mp h).2
  | insertSession =>
      rcases Database.orElse_eq_some h with h | h
      · exact ofTables_of_lacking h (.noColumnToFill _ _)
      · exact ofTables_of_brokenReference (Option.ite_none_right_eq_some.mp h).2
  | deleteSession =>
      rcases Database.orElse_eq_some h with h | h
      · exact ofTables_of_lacking h (.noColumn _)
      · exact ofTables_of_brokenReference (Option.ite_none_right_eq_some.mp h).2
  | dropTable name =>
      simp only [obstacle] at h
      split at h
      · obtain rfl := Option.some.inj h
        exact .noTable name
      · split at h
        · obtain rfl := Option.some.inj h
          exact .noTable name
        · cases h
        · exact ofTables_of_brokenRemoval (Option.ite_none_right_eq_some.mp h).2
  | block name =>
      obtain rfl := Option.some.inj (Option.ite_none_right_eq_some.mp h).2
      exact .noTable _
  | plain => cases h

theorem ofTables_of_recalled {readable : Bool} {rules : Rules} {s : Statement} {f : Fault}
    (h : o.recalled readable rules s = some f) : f.OfTables := by
  obtain ⟨x, hx, hf⟩ := Option.bind_eq_some_iff.mp h
  split at hf
  · cases hf
  · obtain rfl := Option.some.inj hf
    exact ofTables_of_obstacle hx

end Outline

theorem Database.ofTables_of_refusal {db : Database} {rules : Rules} {s : Statement} {f : Fault}
    (h : db.refusal rules s = some f) : f.OfTables := by
  obtain ⟨x, hx, rfl⟩ := Option.map_eq_some_iff.mp h
  exact Outline.ofTables_of_obstacle hx

open OwnershipRegistry.Except (OnError onError_ok onError_error)

theorem Cell.read_lasting (c : Cell) (index : Nat) (column : String) :
    OnError Fault.Lasting (c.read index column) := by
  cases c with
  | blob octets => exact onError_error (Fault.lasting_of_isLock rfl)
  | text octets =>
      simp only [Cell.read]
      split
      · exact onError_ok _
      · exact onError_error (Fault.lasting_of_isLock rfl)

theorem SessionRow.read_lasting (r : SessionRow) : OnError Fault.Lasting r.read :=
  (r.id.read_lasting _ _).bind fun _ => (r.targetId.read_lasting _ _).bind fun _ =>
    (r.targetKind.read_lasting _ _).bind fun _ =>
      (OnError.optionMapM (fun c => c.read_lasting _ _) r.name).bind fun _ =>
        (r.createdAt.read_lasting _ _).bind fun _ => onError_ok _

namespace Database

variable {α : Type} {db : Database} {rules : Rules}

theorem understood_lasting {s : Statement} {f : Except Fault α} (hf : OnError Fault.Lasting f) :
    OnError Fault.Lasting (db.understood rules s f) := by
  rw [understood]
  split
  · rename_i fault hfault
    exact onError_error (ofTables_of_refusal hfault).lasting
  · exact hf

/-! ### Reading -/

theorem backingPresent_lasting (t : Target) : OnError Fault.Lasting (db.backingPresent t) :=
  understood_lasting (onError_ok _)

theorem entityPresent_lasting (t : Target) : OnError Fault.Lasting (db.entityPresent t) :=
  understood_lasting (onError_ok _)

theorem sessionIdsOf_lasting (t : Target) : OnError Fault.Lasting (db.sessionIdsOf t) :=
  (understood_lasting (onError_ok _)).bind fun rows =>
    OnError.mapM (fun r => (r.id.read_lasting _ _).bind fun _ => onError_ok _) rows

theorem sessionTextsOf_lasting (t : Target) : OnError Fault.Lasting (db.sessionTextsOf t) :=
  (understood_lasting (onError_ok _)).bind fun rows =>
    OnError.mapM SessionRow.read_lasting rows

theorem sessionText?_lasting (id : SessionId) : OnError Fault.Lasting (db.sessionText? id) :=
  understood_lasting (OnError.optionMapM SessionRow.read_lasting _)

theorem entityTexts_lasting : OnError Fault.Lasting db.entityTexts :=
  understood_lasting (OnError.mapM (fun r => (r.id.read_lasting _ _).bind fun _ =>
    (r.kind.read_lasting _ _).bind fun _ => onError_ok _) _)

theorem orphans_lasting : OnError Fault.Lasting db.orphans := by
  refine OnError.bind ?_ fun _ => OnError.bind ?_ fun _ => onError_ok _
  · exact understood_lasting (OnError.mapM (fun r => (r.id.read_lasting _ _).bind fun _ =>
      (r.kind.read_lasting _ _).bind fun _ => onError_ok _) _)
  · exact understood_lasting (OnError.mapM (fun s => (s.id.read_lasting _ _).bind fun _ =>
      (s.targetId.read_lasting _ _).bind fun _ =>
        (s.targetKind.read_lasting _ _).bind fun _ => onError_ok _) _)

/-! ### Changes -/

theorem removeSessions_lasting (p : SessionRow → Bool) :
    OnError Fault.Lasting (db.removeSessions p) := by
  rw [removeSessions]
  split
  · exact onError_ok _
  · split
    · exact onError_error (Fault.lasting_of_isLock rfl)
    · exact onError_ok _

theorem removeEntities_lasting (p : EntityRow → Bool) :
    OnError Fault.Lasting (db.removeEntities rules p) := by
  rw [removeEntities]
  split
  · exact onError_ok _
  · split
    · exact onError_error (Fault.lasting_of_isLock rfl)
    · simp only
      split
      · exact removeSessions_lasting _
      · exact onError_ok _

theorem deleteSessions_lasting (p : SessionRow → Bool) :
    OnError Fault.Lasting (db.deleteSessions rules p) :=
  understood_lasting ((removeSessions_lasting p).map _)

theorem deleteEntities_lasting (p : EntityRow → Bool) :
    OnError Fault.Lasting (db.deleteEntities rules p) :=
  understood_lasting ((removeEntities_lasting p).map _)

theorem deleteBacking_lasting (k : Kind) (id : Option Cell) :
    OnError Fault.Lasting (db.deleteBacking rules k id) := by
  refine understood_lasting ?_
  simp only
  split
  · exact onError_ok _
  · split
    · exact onError_error (Fault.lasting_of_isLock rfl)
    · split
      · exact (removeEntities_lasting _).map _
      · exact onError_ok _

theorem insertBacking_lasting (k : Kind) (id : Option Cell) :
    OnError Fault.Lasting (db.insertBacking rules k id) := by
  refine understood_lasting ?_
  simp only
  split
  · exact onError_error (Fault.lasting_of_isLock rfl)
  · split
    · exact onError_error (Fault.lasting_of_isLock rfl)
    · split
      · rename_i fault rest hfaults
        refine onError_error ?_
        rcases BackingTable.tells_of_mem_faults (hfaults ▸ List.mem_cons_self) with
          ⟨hrow, -⟩ | ⟨-, columns, rfl⟩ | rfl
        · exact Fault.lasting_of_isOfRow hrow
        · exact Fault.lasting_of_isLock rfl
        · exact Fault.lasting_of_isLock rfl
      · exact onError_ok _

theorem insertEntity_lasting (id kind : Option Cell) :
    OnError Fault.Lasting (db.insertEntity rules id kind) := by
  refine understood_lasting ?_
  simp only
  split
  · exact onError_error (Fault.lasting_of_isLock rfl)
  · split
    · exact onError_error (Fault.lasting_of_isLock rfl)
    · exact onError_error (Fault.lasting_of_isLock rfl)
    · repeat' split
      all_goals first | exact onError_ok _ | exact onError_error (Fault.lasting_of_isLock rfl)

theorem insertSession_lasting (id targetId targetKind name createdAt : Option Cell) :
    OnError Fault.Lasting (db.insertSession rules id targetId targetKind name createdAt) := by
  refine understood_lasting ?_
  simp only
  split
  · exact onError_error (Fault.lasting_of_isLock rfl)
  · split
    · exact onError_error (Fault.lasting_of_isLock rfl)
    · exact onError_error (Fault.lasting_of_isLock rfl)
    · exact onError_error (Fault.lasting_of_isLock rfl)
    · exact onError_error (Fault.lasting_of_isLock rfl)
    · repeat' split
      all_goals first | exact onError_ok _ | exact onError_error (Fault.lasting_of_isLock rfl)

end Database

end OwnershipRegistry
