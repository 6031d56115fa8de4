import OwnershipRegistry.Proofs.File.Parts

/-!
Operations on the file by pairs. Every change of the file is confined to the pairs of
its footprint, whatever rows the file holds and whichever locks are in the way. Only
the tables of backing records have to be as stores make them: a rule of another program
may look at any row.
-/

namespace OwnershipRegistry.FileStore

open Database

variable {a : Access} {now : Instant} {db db' : Database} {F G : EntityRow → Bool} {t : Target}
  {op : Operation} {x : Answer}

/-! ### Transactions on some pairs -/

/-- Some pairs alone look like the whole to whoever looks at them alone. -/
theorem lookAlike_only (F : EntityRow → Bool) (db : Database) :
    LookAlike id (only F) (db.only F) db where
  seen := rfl
  outline := (sameTables_only F db).outline_eq

theorem map_seenBy_id {ε α : Type} (x : Except ε (Database × α)) : x.map (seenBy id) = x := by
  cases x <;> rfl

theorem insertBacking_only (hdb : db.Provisioned) (ht : F (.ofTarget t) = true) :
    insertBacking a (db.only F) t = (insertBacking a db t).onStore (only F) :=
  (lookAlike_only F db).insertBacking <| by
    rw [Except.map_id_eq, Database.insertBacking_only hdb ht]

theorem deleteBacking_only (ht : F (.ofTarget t) = true) :
    deleteBacking a (db.only F) t = (deleteBacking a db t).onStore (only F) :=
  (lookAlike_only F db).deleteBacking (entityPresent_only ht) (sessionIdsOf_only ht) <| by
    rw [map_seenBy_id, Database.deleteBacking_only ht]
    rfl

theorem backingDeleted_only (ht : F (.ofTarget t) = true) :
    backingDeleted a (db.only F) t = (backingDeleted a db t).onStore (only F) :=
  (lookAlike_only F db).backingDeleted (backingPresent_only ht) (sessionIdsOf_only ht) <| by
    rw [map_seenBy_id, deleteEntities_only fun r hr => by rw [beq_iff_eq.mp hr, ht]]
    rfl

theorem register_only (ht : F (.ofTarget t) = true) :
    register a (db.only F) t = (register a db t).onStore (only F) :=
  (lookAlike_only F db).register <| by
    rw [Except.map_id_eq]
    exact insertEntity_only (r := .ofTarget t) ht

theorem createSession_only {new : NewSession} (ht : F (.ofTarget new.target) = true)
    (hid : ∀ s ∈ db.sessionRows, s.id = .ofString new.id.text → F s.owner = true) :
    createSession a now (db.only F) new = (createSession a now db new).onStore (only F) :=
  (lookAlike_only F db).createSession rfl <| by
    rw [Except.map_id_eq, insertSession_only {} (.ofSession (new.toSession now)) ht hid]

theorem deleteSession_only {id : SessionId}
    (hid : ∀ s ∈ db.sessionRows, s.id = .ofString id.text → F s.owner = true) :
    deleteSession a (db.only F) id = (deleteSession a db id).onStore (only F) :=
  (lookAlike_only F db).deleteSession <| by
    rw [map_seenBy_id, deleteSessions_only fun s hs h => hid s hs (beq_iff_eq.mp h)]
    rfl

theorem deleteAllSessions_only (ht : F (.ofTarget t) = true) :
    deleteAllSessions a (db.only F) t = (deleteAllSessions a db t).onStore (only F) :=
  (lookAlike_only F db).deleteAllSessions <| by
    rw [map_seenBy_id, deleteSessions_only fun s _ h => by rw [beq_iff_eq.mp h, ht]]
    rfl

/-! ### Operations -/

/-- The parts of the file are those of its pairs. -/
def parted : Parted Database EntityRow (Access × Instant) where
  run db c op := run c.1 c.2 db op
  only := only
  part := .ofTarget
  owns db r id := ∃ s ∈ db.sessionRows, s.owner = r ∧ s.id = .ofString id.text

theorem touches_target (h : op.target? = some t) : parted.Touches db op (.ofTarget t) :=
  .inl ⟨t, h, rfl⟩

theorem touches_session {id : SessionId} (h : op.session? = some id) {s : SessionRow}
    (hs : s ∈ db.sessionRows) (hid : s.id = .ofString id.text) : parted.Touches db op s.owner :=
  .inr ⟨id, h, s, hs, rfl, hid⟩

theorem run_only (hdb : db.Provisioned) (hop : op.takesLock = true)
    (hF : ∀ r, parted.Touches db op r → F r = true) :
    run a now (db.only F) op = (run a now db op).onStore (only F) := by
  have ht {t : Target} (h : op.target? = some t) : F (.ofTarget t) = true :=
    hF _ (touches_target h)
  have hid {id : SessionId} (h : op.session? = some id) :
      ∀ s ∈ db.sessionRows, s.id = .ofString id.text → F s.owner = true :=
    fun s hs hsid => hF _ (touches_session h hs hsid)
  cases op with
  | insertBacking t =>
      rw [run, insertBacking_only hdb (ht rfl)]
      rfl
  | deleteBacking t =>
      rw [run, deleteBacking_only (ht rfl)]
      rfl
  | backingDeleted t =>
      rw [run, backingDeleted_only (ht rfl)]
      rfl
  | register t =>
      rw [run, register_only (ht rfl)]
      rfl
  | ensureRegistered t =>
      rw [run, register_only (ht rfl), Outcome.ensuring_onStore]
      rfl
  | createSession new =>
      rw [run, createSession_only (ht rfl) (hid rfl)]
      rfl
  | deleteSession id =>
      rw [run, deleteSession_only (hid rfl)]
      rfl
  | deleteAllSessions t =>
      rw [run, deleteAllSessions_only (ht rfl)]
      rfl
  | backingExists | lookup | listEntities | getSession | listSessions | verify => cases hop

/-- Pairs outside the footprint keep what they have. -/
theorem Effect.only_eq (h : Effect now db op x db')
    (hG : ∀ r, parted.Touches db op r → G r = false) : db'.only G = db.only G := by
  cases h with
  | backingAdded t _ free => exact only_withBackingRow free (hG _ (touches_target rfl))
  | backingDeleted t => exact only_withoutBacking (hG _ (touches_target rfl))
  | entityDeleted t =>
      exact only_withoutEntities fun r hr => by
        rw [beq_iff_eq.mp hr]
        exact hG _ (touches_target rfl)
  | registered op t asked _ free =>
      refine only_withEntity free (hG _ (touches_target ?_))
      rcases asked with rfl | rfl <;> rfl
  | sessionMade new _ free => exact only_withSession free (hG _ (touches_target rfl))
  | sessionDeleted id =>
      exact only_withoutSessions fun s hs h =>
        hG _ (touches_session rfl hs (beq_iff_eq.mp h))
  | sessionsDeleted t =>
      exact only_withoutSessions fun s _ h => by
        rw [beq_iff_eq.mp h]
        exact hG _ (touches_target rfl)
  | backingLeftOut | backingMissed | ensured | looked => rfl

/-- A session that was not there has the identifier that the operation names. -/
theorem Effect.mem_sessionRows_or_named (h : Effect now db op x db') {s : SessionRow}
    (hs : s ∈ db'.sessionRows) :
    s ∈ db.sessionRows ∨ ∃ id, op.session? = some id ∧ s.id = .ofString id.text := by
  cases h with
  | backingAdded => exact .inl (sessionRows_withBackingRow ▸ hs)
  | backingDeleted => exact .inl (mem_sessionRows_withoutBacking.mp hs).1
  | entityDeleted => exact .inl (mem_sessionRows_withoutEntities.mp hs).1
  | registered => exact .inl hs
  | sessionMade new table free =>
      rcases (mem_sessionRows_withSession table free).mp hs with rfl | hs
      · exact .inr ⟨new.id, rfl, rfl⟩
      · exact .inl hs
  | sessionDeleted | sessionsDeleted =>
      rw [sessionRows_withoutSessions] at hs
      exact .inl (List.mem_filter.mp hs).1
  | backingLeftOut | backingMissed | ensured | looked => exact .inl hs

/-- Every change of a file with provisioned tables is confined to its footprint. -/
theorem confined : parted.Confined (·.takesLock = true) Database.Provisioned where
  ext F h h' := only_ext F h h'
  run_only _ hdb hop hF := run_only hdb hop hF
  only_run {db op F} c _ _ hG := by
    show (run c.1 c.2 db op).store.only F = db.only F
    cases h : (run c.1 c.2 db op).answer with
    | error e => rw [run_store_of_error h]
    | ok x => exact (run_effect h).only_eq hG
  owns {db op r id} c _ := by
    rintro ⟨s, hs, rfl, hid⟩
    have hs : s ∈ (run c.1 c.2 db op).store.sessionRows := hs
    cases h : (run c.1 c.2 db op).answer with
    | error e =>
        rw [run_store_of_error h] at hs
        exact .inl ⟨s, hs, rfl, hid⟩
    | ok x =>
        rcases (run_effect h).mem_sessionRows_or_named hs with hs | ⟨id', hop, hid'⟩
        · exact .inl ⟨s, hs, rfl, hid⟩
        · obtain ⟨id⟩ := id
          obtain ⟨id'⟩ := id'
          obtain rfl : id' = id := Cell.ofString_injective (hid'.symm.trans hid)
          exact .inr hop
  keeps {db} c op hdb := by
    have hstep : Altered true db (run c.1 c.2 db op).store := run_altered c.1 c.2 db op
    exact hstep.provisioned hdb

end OwnershipRegistry.FileStore
