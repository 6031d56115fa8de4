import OwnershipRegistry.Proofs.File.Removal
import OwnershipRegistry.Proofs.File.Views

/-!
The names and the instants of sessions are read by nobody but those who ask for sessions.
All other operations have the same answers whatever stands there, refusals and locks
included, and leave files that again differ only there.
-/

namespace OwnershipRegistry

/-- The row without its name and its instant. -/
def SessionRow.blank (s : SessionRow) : SessionRow := { s with name := none, createdAt := .text [] }

theorem SessionRow.compare_blank (s s' : SessionRow) :
    compare s.blank.id s'.blank.id = compare s.id s'.id := rfl

namespace Database

/-- The file with the names and the instants of its sessions left out. Two files that are
the same then differ only there. -/
def blanked (db : Database) : Database :=
  { db with
    sessions := db.sessions.map fun rows => rows.map SessionRow.blank SessionRow.compare_blank }

variable {db db' : Database} {k : Kind} {t : Target} {rules : Rules} {α : Type}

@[simp] theorem backing_blanked (k : Kind) : db.blanked.backing k = db.backing k := by
  cases k <;> rfl

@[simp] theorem entities_blanked : db.blanked.entities = db.entities := rfl

@[simp] theorem isBlocked_blanked (n : TableName) (c : Change) :
    db.blanked.isBlocked n c = db.isBlocked n c := rfl

theorem getD_sessions_blanked : db.blanked.sessions.getD ∅ =
    (db.sessions.getD ∅).map SessionRow.blank SessionRow.compare_blank := by
  rw [blanked]
  cases db.sessions <;> rfl

theorem setBacking_blanked (b : Option BackingTable) :
    db.blanked.setBacking k b = (db.setBacking k b).blanked := by
  cases k <;> rfl

theorem sameTables_blanked (db : Database) : db.SameTables db.blanked where
  has n := by cases n <;> simp [has, blanked]
  ledger := rfl
  strangers := rfl
  indexes := rfl
  blocks := rfl

theorem understood_blanked (s : Statement) (f : Except Fault α) :
    db.blanked.understood rules s f = db.understood rules s f :=
  understood_congr (sameTables_blanked db).outline_eq rules s f

/-! ### What is read -/

theorem backingPresent_blanked : db.blanked.backingPresent t = db.backingPresent t := by
  rw [backingPresent, understood_blanked, backing_blanked, backingPresent]

theorem entityPresent_blanked : db.blanked.entityPresent t = db.entityPresent t := by
  rw [entityPresent, understood_blanked, entities_blanked, entityPresent]

theorem entityTexts_blanked : db.blanked.entityTexts = db.entityTexts := by
  rw [entityTexts, understood_blanked, entities_blanked, entityTexts]

theorem sessionRowsOf_blanked :
    db.blanked.sessionRowsOf t = (db.sessionRowsOf t).map (List.map SessionRow.blank) := by
  rw [sessionRowsOf, understood_blanked, getD_sessions_blanked, Table.rows_map, List.filter_map,
    sessionRowsOf, ← understood_map]
  rfl

theorem sessionIdsOf_blanked : db.blanked.sessionIdsOf t = db.sessionIdsOf t := by
  rw [sessionIdsOf, sessionRowsOf_blanked, sessionIdsOf]
  cases db.sessionRowsOf t with
  | error f => rfl
  | ok rows => exact List.mapM_map

theorem orphanSessions_blanked : db.blanked.orphanSessions = db.orphanSessions := by
  rw [orphanSessions, understood_blanked, getD_sessions_blanked, Table.rows_map, List.filter_map,
    List.mapM_map, orphanSessions]
  rfl

theorem orphanEntities_blanked : db.blanked.orphanEntities = db.orphanEntities := by
  have horphan : db.blanked.isOrphan = db.isOrphan := by
    funext r
    simp only [isOrphan, backing_blanked]
  rw [orphanEntities, understood_blanked, entities_blanked, horphan, orphanEntities]

theorem orphans_blanked : db.blanked.orphans = db.orphans := by
  rw [orphans, orphanEntities_blanked, orphanSessions_blanked, orphans]

/-! ### What is changed -/

theorem removeSessions_blanked {p : SessionRow → Bool} (hp : ∀ s, p s.blank = p s) :
    db.blanked.removeSessions p = (db.removeSessions p).map blanked := by
  cases hs : db.sessions with
  | none =>
    have hsame : db.blanked = db := by rw [blanked, hs, Option.map_none, ← hs]
    rw [hsame, removeSessions, hs]
    exact congrArg Except.ok hsame.symm
  | some rows =>
    have hany : (rows.rows.map SessionRow.blank).any p = rows.rows.any p := by
      rw [List.any_map]
      exact congrArg (List.any rows.rows) (funext hp)
    simp only [removeSessions, isBlocked_blanked]
    simp only [blanked, hs, Option.map_some, Table.rows_map, hany, Table.keep_map, hp]
    split_ifs <;> rfl

theorem countP_blank {p : SessionRow → Bool} (hp : ∀ s, p s.blank = p s) :
    (db.blanked.sessions.getD ∅).rows.countP p = (db.sessions.getD ∅).rows.countP p := by
  rw [getD_sessions_blanked, Table.rows_map, List.countP_map]
  exact congrArg (List.countP · _) (funext hp)

theorem deleteSessions_blanked {p : SessionRow → Bool} (hp : ∀ s, p s.blank = p s) :
    db.blanked.deleteSessions rules p = (db.deleteSessions rules p).map (seenBy blanked) := by
  rw [deleteSessions, deleteSessions, understood_blanked, countP_blank hp,
    removeSessions_blanked hp, ← understood_map]
  cases db.removeSessions p <;> rfl

theorem removeEntities_blanked (p : EntityRow → Bool) :
    db.blanked.removeEntities rules p = (db.removeEntities rules p).map blanked := by
  cases he : db.entities with
  | none =>
    simp only [removeEntities, entities_blanked, he]
    rfl
  | some rows =>
    simp only [removeEntities, entities_blanked, he]
    have hblocked : db.blanked.isBlocked .entities .deletion = db.isBlocked .entities .deletion :=
      rfl
    by_cases hb : (rows.rows.any p && db.isBlocked .entities .deletion) = true
    · rw [if_pos hb, if_pos (hblocked ▸ hb)]
      rfl
    · rw [if_neg hb, if_neg (hblocked ▸ hb)]
      split_ifs
      · exact @removeSessions_blanked { db with entities := some (rows.keep fun r => !p r) } _
          fun _ => rfl
      · rfl

theorem deleteEntities_blanked (p : EntityRow → Bool) :
    db.blanked.deleteEntities rules p = (db.deleteEntities rules p).map (seenBy blanked) := by
  rw [deleteEntities, deleteEntities, understood_blanked, entities_blanked,
    removeEntities_blanked, ← understood_map]
  cases db.removeEntities rules p <;> rfl

theorem deleteBacking_blanked (id : Option Cell) :
    db.blanked.deleteBacking rules k id = (db.deleteBacking rules k id).map (seenBy blanked) := by
  rw [deleteBacking, deleteBacking, understood_blanked, ← understood_map]
  congr 1
  simp only [backing_blanked, isBlocked_blanked, setBacking_blanked, removeEntities_blanked]
  split
  · rfl
  · split_ifs
    · rfl
    · generalize Database.removeEntities _ _ _ = x
      cases x <;> rfl
    · rfl

theorem insertBacking_blanked (id : Option Cell) :
    db.blanked.insertBacking rules k id = (db.insertBacking rules k id).map blanked := by
  rw [insertBacking, insertBacking, understood_blanked, ← understood_map]
  congr 1
  simp only [backing_blanked, isBlocked_blanked, setBacking_blanked]
  split_ifs
  · rfl
  · cases id with
    | none => rfl
    | some c =>
      simp only
      split <;> rfl

theorem isBacked_blanked (r : EntityRow) : db.blanked.isBacked r = db.isBacked r := by
  simp only [isBacked, backing_blanked]

theorem insertEntity_blanked (id kind : Option Cell) :
    db.blanked.insertEntity rules id kind = (db.insertEntity rules id kind).map blanked := by
  rw [insertEntity, insertEntity, understood_blanked, ← understood_map]
  congr 1
  simp only [entities_blanked, isBlocked_blanked, isBacked_blanked]
  split_ifs
  · rfl
  · split <;> try split_ifs
    all_goals rfl

/-- What is left out of a new row is left out with it. -/
theorem insert_blank (rows : Table SessionRow SessionRow.id) (s : SessionRow) :
    ((rows.map SessionRow.blank SessionRow.compare_blank).insert s).map SessionRow.blank
        SessionRow.compare_blank =
      (rows.insert s).map SessionRow.blank SessionRow.compare_blank := by
  have htwice : (rows.map SessionRow.blank SessionRow.compare_blank).map SessionRow.blank
      SessionRow.compare_blank = rows.map SessionRow.blank SessionRow.compare_blank := by
    refine Table.ext ?_
    rw [Table.rows_map, Table.rows_map, List.map_map]
    rfl
  rw [← Table.insert_map, ← Table.insert_map, htwice]

theorem hasEntityRow_blanked (r : EntityRow) : db.blanked.hasEntityRow r = db.hasEntityRow r := rfl

/-- Whatever a new row says of the name and the instant is left out as well. -/
theorem insertSession_blanked (s : SessionRow) :
    (db.blanked.insertSession rules (some s.id) (some s.targetId) (some s.targetKind) s.name
        (some s.createdAt)).map blanked =
      (db.insertSession rules (some s.id) (some s.targetId) (some s.targetKind) s.name
        (some s.createdAt)).map blanked := by
  have hinsert := insert_blank (db.sessions.getD ∅) s
  obtain ⟨id, targetId, targetKind, name, createdAt⟩ := s
  have hcontains : ((db.sessions.getD ∅).map SessionRow.blank SessionRow.compare_blank).contains
      id = (db.sessions.getD ∅).contains id := Table.contains_map (fun _ => rfl) _
  rw [insertSession, insertSession, understood_blanked, ← understood_map, ← understood_map]
  congr 1
  simp only [isBlocked_blanked, hasEntityRow_blanked, getD_sessions_blanked, hcontains]
  split_ifs
  · rfl
  · rfl
  · rfl
  · simp only [Except.map, blanked, Option.map_some, hinsert]

end Database

/-! ### Operations -/

/-- Whether an operation asks for sessions. -/
def Operation.asksForSessions : Operation → Bool
  | .getSession _ | .listSessions _ => true
  | _ => false

namespace FileStore

open Database

variable {a : Access} {now : Instant} {db db' : Database} {op : Operation}

/-- Two files that differ only in what is left out look alike without it. -/
theorem lookAlike_blanked (h : db.blanked = db'.blanked) : LookAlike blanked blanked db db' where
  seen := h
  outline := by
    rw [← (sameTables_blanked db).outline_eq, h, (sameTables_blanked db').outline_eq]

/-- What is the same without the names and the instants is the same in both files. -/
theorem eq_of_blanked {α : Type} (h : db.blanked = db'.blanked) {f : Database → α}
    (hf : ∀ db, f db.blanked = f db) : f db = f db' := by
  rw [← hf db, h, hf]

theorem reading_blanked {α : Type} (h : db.blanked = db'.blanked) {f : Database → Except Fault α}
    (hf : ∀ db, f db.blanked = f db) :
    (reading a db f).onStore blanked = (reading a db' f).onStore blanked := by
  have hread : a.read db f = a.read db' f := by rw [Access.read, Access.read, eq_of_blanked h hf]
  simp only [reading, Outcome.onStore, hread, h]

/-- An operation that asks for no sessions neither reads nor writes what is left out of
two files that differ only there. -/
theorem run_blanked (h : db.blanked = db'.blanked) (hop : op.asksForSessions = false) :
    (run a now db op).onStore blanked = (run a now db' op).onStore blanked := by
  have hlook := lookAlike_blanked h
  have hids {t : Target} : db.sessionIdsOf t = db'.sessionIdsOf t :=
    eq_of_blanked (f := (·.sessionIdsOf t)) h fun _ => sessionIdsOf_blanked
  have hbacking {t : Target} : db.backingPresent t = db'.backingPresent t :=
    eq_of_blanked (f := (·.backingPresent t)) h fun _ => backingPresent_blanked
  have hentity {t : Target} : db.entityPresent t = db'.entityPresent t :=
    eq_of_blanked (f := (·.entityPresent t)) h fun _ => entityPresent_blanked
  have hdelete {p : SessionRow → Bool} (hp : ∀ s, p s.blank = p s) :
      (db.deleteSessions {} p).map (seenBy blanked) =
        (db'.deleteSessions {} p).map (seenBy blanked) := by
    rw [← deleteSessions_blanked hp, h, deleteSessions_blanked hp]
  have hregister {t : Target} :
      (register a db t).onStore blanked = (register a db' t).onStore blanked :=
    hlook.register <| by rw [← insertEntity_blanked, h, insertEntity_blanked]
  cases op with
  | insertBacking t =>
      have hstep := hlook.insertBacking (a := a) (t := t) <| by
        rw [← insertBacking_blanked, h, insertBacking_blanked]
      exact congrArg (Outcome.map _) hstep
  | backingExists t =>
      have hread := reading_blanked (a := a) (f := (·.backingPresent t)) h fun _ =>
        backingPresent_blanked
      exact congrArg (Outcome.map _) hread
  | deleteBacking t =>
      have hstep := hlook.deleteBacking (a := a) (t := t) hentity hids <| by
        rw [← deleteBacking_blanked, h, deleteBacking_blanked]
      exact congrArg (Outcome.map _) hstep
  | backingDeleted t =>
      have hstep := hlook.backingDeleted (a := a) (t := t) hbacking hids <| by
        rw [← deleteEntities_blanked, h, deleteEntities_blanked]
      exact congrArg (Outcome.map _) hstep
  | register t => exact congrArg (Outcome.map _) hregister
  | ensureRegistered t =>
      have hensured : ((register a db t).ensuring t).onStore blanked =
          ((register a db' t).ensuring t).onStore blanked := by
        rw [← Outcome.ensuring_onStore, hregister, Outcome.ensuring_onStore]
      exact congrArg (Outcome.map _) hensured
  | lookup t =>
      have hread := reading_blanked (a := a) (f := (·.entityPresent t)) h fun _ =>
        entityPresent_blanked
      exact congrArg (Outcome.map _) hread
  | listEntities =>
      have hread := reading_blanked (a := a) h fun _ => entityTexts_blanked
      exact congrArg (Outcome.map _) (congrArg (Outcome.judge _) hread)
  | createSession new =>
      have hstep : (createSession a now db new).onStore blanked =
          (createSession a now db' new).onStore blanked :=
        hlook.createSession rfl <| by rw [← insertSession_blanked, h, insertSession_blanked]
      exact congrArg (Outcome.map _) hstep
  | deleteSession id =>
      exact congrArg (Outcome.map _) (hlook.deleteSession (hdelete fun _ => rfl))
  | deleteAllSessions t =>
      exact congrArg (Outcome.map _) (hlook.deleteAllSessions (hdelete fun _ => rfl))
  | verify =>
      have hread := reading_blanked (a := a) h fun _ => orphans_blanked
      exact congrArg (Outcome.map _) (congrArg (Outcome.judge _) hread)
  | getSession | listSessions => cases hop

theorem runKnowing_blanked (known : Outline) (a : Access) (now : Instant)
    (h : db.blanked = db'.blanked) (hop : op.asksForSessions = false) :
    (runKnowing known a now db op).1.onStore blanked =
        (runKnowing known a now db' op).1.onStore blanked ∧
      (runKnowing known a now db op).2 = (runKnowing known a now db' op).2 := by
  simp only [runKnowing]
  split
  · exact ⟨congrArg (Outcome.mk · _ _) h, rfl⟩
  · exact ⟨run_blanked h hop, by rw [(lookAlike_blanked h).outline]⟩

end FileStore

/-! ### Stores on one file -/

/-- What a file holds, and what each store on it remembers of it. -/
structure Sharing where
  database : Database
  known : Nat → Outline

/-- A call: of which store, under which locks, when and for what. -/
structure Call where
  store : Nat
  access : Access
  now : Instant
  operation : Operation

namespace Sharing

def call (s : Sharing) (c : Call) : Outcome Sharing Answer :=
  let (o, known) :=
    FileStore.runKnowing (s.known c.store) c.access c.now s.database c.operation
  ⟨⟨o.store, Function.update s.known c.store known⟩, o.answer, o.events⟩

/-- What calls are told, one after the other, and what they leave. -/
def calls (s : Sharing) : List Call → List (Except RegistryError Answer × List Event) × Sharing
  | [] => ([], s)
  | c :: cs =>
    let o := s.call c
    ((o.answer, o.events) :: (o.store.calls cs).1, (o.store.calls cs).2)

/-- The same, with the names and the instants of the sessions of the file left out. -/
def blanked (s : Sharing) : Sharing := { s with database := s.database.blanked }

variable {s s' : Sharing}

theorem call_blanked {c : Call} (h : s.blanked = s'.blanked)
    (hc : c.operation.asksForSessions = false) :
    (s.call c).onStore blanked = (s'.call c).onStore blanked := by
  have hdatabase : s.blanked.database = s'.blanked.database := by rw [h]
  have hknown : s.blanked.known = s'.blanked.known := by rw [h]
  obtain ⟨hrun, hknown'⟩ := FileStore.runKnowing_blanked (s.known c.store) c.access c.now
    hdatabase hc
  simp only [Outcome.onStore, Outcome.mk.injEq] at hrun
  simp only [blanked] at hknown
  simp only [call, Outcome.onStore, blanked, ← hknown, hrun, hknown']

theorem calls_blanked {cs : List Call} (h : s.blanked = s'.blanked)
    (hcs : ∀ c ∈ cs, c.operation.asksForSessions = false) :
    (s.calls cs).1 = (s'.calls cs).1 ∧ (s.calls cs).2.blanked = (s'.calls cs).2.blanked := by
  induction cs generalizing s s' with
  | nil => exact ⟨rfl, h⟩
  | cons c cs ih =>
      have hcall := call_blanked h (hcs c List.mem_cons_self)
      simp only [Outcome.onStore, Outcome.mk.injEq] at hcall
      obtain ⟨hstore, hanswer, hevents⟩ := hcall
      obtain ⟨htold, hleft⟩ := ih hstore fun c hc => hcs c (List.mem_cons_of_mem _ hc)
      rw [calls, calls]
      exact ⟨by rw [hanswer, hevents, htold], hleft⟩

end Sharing

end OwnershipRegistry
