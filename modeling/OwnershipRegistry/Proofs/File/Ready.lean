import OwnershipRegistry.File.Store
import OwnershipRegistry.Proofs.File.Audit
import OwnershipRegistry.Proofs.File.Regular

/-!
Files that are ready for a store: all tables of rows are there and no other
program has put anything in the way of a change. In such a file every statement
about rows is understood, and what comes of it is told by the rows alone.
-/

namespace OwnershipRegistry

/-- Whether a statement is about rows of backing records, entities and
sessions. -/
def Statement.isOfRows : Statement → Bool
  | .readLedger | .recordMigration | .forgetMigration | .dropTable _ | .block _ => false
  | _ => true

namespace Database

/-- All tables of rows are there, and nothing is in the way of a change. -/
structure Ready (db : Database) : Prop where
  backing : ∀ k, db.has (.ofKind k) = true
  entities : db.has .entities = true
  sessions : db.has .sessions = true
  unblocked : db.blocks = []
  provisioned : db.Provisioned

variable {db : Database} {rules : Rules}

theorem understood_eq {α : Type} {s : Statement} (h : db.refusal rules s = none)
    (f : Except Fault α) : db.understood rules s f = f := by
  rw [understood, h]

theorem lackingToFill_eq_none {n : TableName} {column : String} (h : db.has n = true) :
    db.outline.lackingToFill n column = none :=
  lacking_eq_none.mpr h

theorem refusal_readBacking {k : Kind} (hk : db.has (.ofKind k) = true) :
    db.refusal rules (.readBacking k) = none := by
  rw [refusal, Outline.obstacle, lacking_eq_none.mpr hk]
  rfl

theorem refusal_readEntities (he : db.has .entities = true) :
    db.refusal rules .readEntities = none := by
  rw [refusal, Outline.obstacle, lacking_eq_none.mpr he]
  rfl

theorem refusal_readSessions (hs : db.has .sessions = true) :
    db.refusal rules .readSessions = none := by
  rw [refusal, Outline.obstacle, lacking_eq_none.mpr hs]
  rfl

theorem refusal_insertSession (hs : db.has .sessions = true) (he : db.has .entities = true) :
    db.refusal rules .insertSession = none := by
  rw [refusal, Outline.obstacle, lackingToFill_eq_none hs, brokenReference_eq_none.mpr he, ite_self]
  rfl

theorem refusal_insertEntity (hb : ∀ k, db.has (.ofKind k) = true) (he : db.has .entities = true) :
    db.refusal rules .insertEntity = none := by
  rw [refusal, Outline.obstacle, lackingToFill_eq_none he, brokenBacking_eq_none.mpr hb, ite_self]
  rfl

/-- A ready file understands every statement about rows. -/
theorem Ready.refusal_eq_none (h : db.Ready) {s : Statement} (hs : s.isOfRows = true) :
    db.refusal rules s = none := by
  have hlack {n : TableName} {f : Fault} (hn : db.has n = true) :
      db.outline.lacking n f = none := lacking_eq_none.mpr hn
  have hbacking : db.outline.brokenBacking = none := brokenBacking_eq_none.mpr h.backing
  have hremoval : db.outline.brokenRemoval = none := by
    rw [Outline.brokenRemoval, hbacking, Option.map_none, ite_self]
  have hentity (f : Fault) : (db.outline.lacking .entities f).orElse
      (fun _ => if rules.references then db.outline.brokenBacking else none) = none := by
    rw [hlack h.entities, hbacking, ite_self]
    rfl
  cases s with
  | readBacking k => exact refusal_readBacking (h.backing k)
  | readEntities => exact refusal_readEntities h.entities
  | readSessions => exact refusal_readSessions h.sessions
  | auditEntities => exact refusal_auditEntities h.entities h.backing
  | auditSessions => exact refusal_auditSessions h.entities h.sessions
  | insertBacking k => rw [refusal, Outline.obstacle, lackingToFill_eq_none (h.backing k)]; rfl
  | deleteBacking k =>
      rw [refusal, Outline.obstacle, hlack (h.backing k), hremoval, ite_self]
      rfl
  | insertEntity => exact refusal_insertEntity h.backing h.entities
  | deleteEntity => rw [refusal, Outline.obstacle, hentity]; rfl
  | insertSession => exact refusal_insertSession h.sessions h.entities
  | deleteSession =>
      rw [refusal, Outline.obstacle, hlack h.sessions, brokenReference_eq_none.mpr h.entities,
        ite_self]
      rfl
  | plain => rfl
  | readLedger | recordMigration | forgetMigration | dropTable | block => cases hs

theorem Ready.isBlocked_eq_false (h : db.Ready) (n : TableName) (c : Change) :
    db.isBlocked n c = false := by
  simp [isBlocked, h.unblocked]

/-- Whether a backing record is there. -/
def hasBackingRow (db : Database) (k : Kind) (id : Cell) : Bool :=
  (db.backing k).any fun b => b.ids.contains id

/-! ### Statements in a ready file -/

/-- What comes of a new session, where it is understood and not blocked: its
identifier is looked at before its owner. -/
theorem insertSession_eq (hs : db.has .sessions = true) (he : db.has .entities = true)
    (hblock : db.isBlocked .sessions .insertion = false) (s : SessionRow) :
    db.insertSession {} (some s.id) (some s.targetId) (some s.targetKind) s.name
        (some s.createdAt) =
      if (db.sessions.getD ∅).contains s.id then
        .error (.taken [TableName.sessions.column "id"])
      else if db.hasEntityRow s.owner then .ok (db.withSession s)
      else .error .noReferent := by
  obtain ⟨t, ht⟩ := Option.isSome_iff_exists.mp (show db.sessions.isSome from hs)
  obtain ⟨id, targetId, targetKind, name, createdAt⟩ := s
  rw [insertSession, understood_eq (refusal_insertSession hs he)]
  simp only [hblock, ht, Option.getD_some, Bool.false_eq_true, if_false, Bool.true_and,
    SessionRow.owner, withSession, Option.map_some]
  cases db.hasEntityRow ⟨targetId, targetKind⟩ <;> rfl

/-- What comes of a new entity, where it is understood and not blocked: the target
is looked at before its backing record. -/
theorem insertEntity_eq (hb : ∀ k, db.has (.ofKind k) = true) (he : db.has .entities = true)
    (hblock : db.isBlocked .entities .insertion = false) (t : Target) :
    db.insertEntity {} (some (.ofString t.id)) (some (.ofString t.kind.tag)) =
      if (db.entities.getD ∅).contains (.ofTarget t) then
        .error (.taken
          [TableName.entities.column "target_id", TableName.entities.column "target_type"])
      else if db.isBacked (.ofTarget t) then .ok (db.withEntity (.ofTarget t))
      else .error .noReferent := by
  obtain ⟨rows, hrows⟩ := Option.isSome_iff_exists.mp (show db.entities.isSome from he)
  have hkind : (Kind.all.any fun k => Cell.ofString t.kind.tag == .ofString k.tag) = true := by
    cases t.kind <;> decide
  rw [insertEntity, understood_eq (refusal_insertEntity hb he)]
  simp only [hblock, hrows, Option.getD_some, Bool.false_eq_true, if_false, hkind,
    Bool.not_true, Bool.and_false, Bool.true_and, EntityRow.ofTarget, withEntity,
    Option.map_some]
  cases db.isBacked ⟨.ofString t.id, .ofString t.kind.tag⟩ <;> rfl

theorem Ready.insertBacking_eq (h : db.Ready) (k : Kind) (id : Cell) :
    db.insertBacking {} k (some id) =
      if db.hasBackingRow k id then
        .error (.taken [(TableName.ofKind k).column k.idColumn])
      else .ok (db.withBackingRow k id) := by
  have hb : (db.backing k).isSome := has_ofKind db k ▸ h.backing k
  obtain ⟨b, hb⟩ := Option.isSome_iff_exists.mp hb
  rw [Database.insertBacking, understood_eq (h.refusal_eq_none rfl)]
  simp only [h.isBlocked_eq_false, hb, Option.getD_some, Bool.false_eq_true, if_false,
    (h.provisioned k b hb).faults_eq {}, hasBackingRow, Option.any_some, withBackingRow,
    Option.map_some]
  cases b.ids.contains id <;> rfl

theorem Ready.removeSessions_eq (h : db.Ready) (p : SessionRow → Bool) :
    db.removeSessions p = .ok (db.withoutSessions p) := by
  obtain ⟨t, ht⟩ := Option.isSome_iff_exists.mp (show db.sessions.isSome from h.sessions)
  rw [removeSessions, ht]
  simp only [h.isBlocked_eq_false, Bool.and_false, Bool.false_eq_true, if_false, withoutSessions,
    ht, Option.map_some]

theorem Ready.deleteSessions_eq (h : db.Ready) (p : SessionRow → Bool) :
    db.deleteSessions {} p = .ok (db.withoutSessions p, db.sessionRows.countP p) := by
  rw [deleteSessions, understood_eq (h.refusal_eq_none rfl), h.removeSessions_eq]
  rfl

/-- What a removal of entities finds is only told by the tables of entities and
sessions. -/
theorem removeEntities_eq (he : db.has .entities = true) (hs : db.has .sessions = true)
    (hblocks : db.blocks = []) (p : EntityRow → Bool) :
    db.removeEntities {} p = .ok (db.withoutEntities p) := by
  obtain ⟨rows, hrows⟩ := Option.isSome_iff_exists.mp (show db.entities.isSome from he)
  obtain ⟨t, ht⟩ := Option.isSome_iff_exists.mp (show db.sessions.isSome from hs)
  simp [removeEntities, removeSessions, isBlocked, hblocks, hrows, ht, withoutEntities]

theorem Ready.deleteEntities_eq (h : db.Ready) (p : EntityRow → Bool) :
    db.deleteEntities {} p = .ok (db.withoutEntities p, db.entityRows.countP p) := by
  rw [deleteEntities, understood_eq (h.refusal_eq_none rfl),
    removeEntities_eq h.entities h.sessions h.unblocked]
  rfl

theorem Ready.deleteBacking_eq (h : db.Ready) (k : Kind) (id : Cell) :
    db.deleteBacking {} k (some id) =
      if db.hasBackingRow k id then .ok (db.withoutBacking k id, 1) else .ok (db, 0) := by
  have hb : (db.backing k).isSome := has_ofKind db k ▸ h.backing k
  obtain ⟨b, hb⟩ := Option.isSome_iff_exists.mp hb
  have hrest : ∀ t, (db.setBacking k t).removeEntities {} (fun r => r.reference k == some id) =
      .ok ((db.setBacking k t).withoutEntities fun r => r.reference k == some id) := by
    intro t
    refine removeEntities_eq ?_ ?_ ?_ _
    · rw [has_setBacking]
      cases k <;> exact h.entities
    · rw [has_setBacking]
      cases k <;> exact h.sessions
    · rw [blocks_setBacking, h.unblocked]
  rw [Database.deleteBacking, understood_eq (h.refusal_eq_none rfl)]
  simp only [hb, Option.getD_some, hasBackingRow, Option.any_some, Option.filter,
    h.isBlocked_eq_false, Bool.false_eq_true, if_false, if_true, withoutBacking,
    Option.map_some]
  cases b.ids.contains id with
  | false => rfl
  | true =>
      simp only [if_true, hrest]
      rfl

/-! ### Readings of a ready file -/

theorem Ready.backingPresent_eq (h : db.Ready) (t : Target) :
    db.backingPresent t = .ok (db.hasBackingRow t.kind (.ofString t.id)) :=
  understood_eq (h.refusal_eq_none rfl) _

theorem Ready.entityPresent_eq (h : db.Ready) (t : Target) :
    db.entityPresent t = .ok ((db.entities.getD ∅).contains (.ofTarget t)) :=
  understood_eq (h.refusal_eq_none rfl) _

theorem Ready.sessionRowsOf_eq (h : db.Ready) (t : Target) :
    db.sessionRowsOf t = .ok (db.sessionRows.filter fun r => r.owner == .ofTarget t) :=
  understood_eq (h.refusal_eq_none rfl) _

/-- A target refers to the backing records of its own kind. -/
theorem isBacked_ofTarget (t : Target) :
    db.isBacked (.ofTarget t) = db.hasBackingRow t.kind (.ofString t.id) := by
  rw [Bool.eq_iff_iff, isBacked_iff, hasBackingRow, any_backing]
  constructor
  · intro h
    exact h t.kind rfl
  · intro h k hk
    rwa [← ofString_tag_injective hk]

end Database

namespace FileStore

variable {a : Access} {db : Database}

/-- A new session in the file: a taken identifier comes before an owner that is
not registered. -/
theorem createSession_eq (ha : a.Writes) (hs : db.has .sessions = true)
    (he : db.has .entities = true) (hblock : db.isBlocked .sessions .insertion = false)
    (now : Instant) (new : NewSession) :
    createSession a now db new =
      if (db.sessions.getD ∅).contains (.ofString new.id.text) then
        ⟨db, .error (.duplicateSession new.id), []⟩
      else if db.hasEntityRow (.ofTarget new.target) then
        ⟨db.withSession (.ofSession (new.toSession now)), .ok (new.toSession now),
          [.sessionCreated new.id new.target]⟩
      else ⟨db, .error (.unknownEntity new.target), []⟩ := by
  let row := SessionRow.ofSession (new.toSession now)
  have hinsert : db.insertSession {} (some row.id) (some row.targetId) (some row.targetKind)
        row.name (some row.createdAt) =
      if (db.sessions.getD ∅).contains (.ofString new.id.text) then
        .error (.taken [TableName.sessions.column "id"])
      else if db.hasEntityRow (.ofTarget new.target) then .ok (db.withSession row)
      else .error .noReferent :=
    Database.insertSession_eq hs he hblock row
  rw [createSession]
  by_cases htaken : (db.sessions.getD ∅).contains (.ofString new.id.text) = true
  · rw [if_pos htaken]
    refine writing_of_error ha.begins ?_
    rw [change_of_writes ha, hinsert, if_pos htaken]
  · rw [if_neg htaken]
    by_cases howner : db.hasEntityRow (.ofTarget new.target) = true
    · rw [if_pos howner]
      refine writing_of_ok ha ?_
      rw [change_of_writes ha, hinsert, if_neg htaken, if_pos howner]
    · rw [if_neg howner]
      refine writing_of_error ha.begins ?_
      rw [change_of_writes ha, hinsert, if_neg htaken, if_neg howner]

variable {t : Target} {ids : List SessionId}

theorem insertBacking_eq (ha : a.Writes) (h : db.Ready) :
    insertBacking a db t =
      if db.hasBackingRow t.kind (.ofString t.id) then ⟨db, .ok false, []⟩
      else ⟨db.withBackingRow t.kind (.ofString t.id), .ok true, [.backingInserted t]⟩ := by
  rw [insertBacking]
  split_ifs with hb
  · refine writing_of_ok ha ?_
    rw [change_of_writes ha, h.insertBacking_eq, if_pos hb]
    rfl
  · refine writing_of_ok ha ?_
    rw [change_of_writes ha, h.insertBacking_eq, if_neg hb]

theorem deleteBacking_eq (ha : a.Writes) (h : db.Ready) (hids : db.sessionIdsOf t = .ok ids) :
    deleteBacking a db t =
      if db.hasBackingRow t.kind (.ofString t.id) then
        ⟨db.withoutBacking t.kind (.ofString t.id),
          .ok ⟨t, true, (db.entities.getD ∅).contains (.ofTarget t), ids⟩,
          [.backingDeleted t ((db.entities.getD ∅).contains (.ofTarget t)) ids.length]⟩
      else ⟨db, .ok (.empty t), []⟩ := by
  rw [deleteBacking]
  split_ifs with hb
  · refine writing_of_ok ha ?_
    rw [change_of_writes ha, h.deleteBacking_eq, if_pos hb, h.entityPresent_eq, hids]
    rfl
  · refine writing_of_ok ha ?_
    rw [change_of_writes ha, h.deleteBacking_eq, if_neg hb, h.entityPresent_eq, hids]
    rfl

/-- The entity whose backing record has gone goes with its sessions, whether the
record is still there or not. -/
theorem backingDeleted_eq (ha : a.Writes) (h : db.Ready) (hids : db.sessionIdsOf t = .ok ids) :
    (backingDeleted a db t).store = db.withoutEntities (· == .ofTarget t) ∧
      (backingDeleted a db t).answer =
        .ok ⟨t, false, (db.entities.getD ∅).contains (.ofTarget t), ids⟩ := by
  have hcount : decide (0 < db.entityRows.countP (· == .ofTarget t)) =
      (db.entities.getD ∅).contains (.ofTarget t) := by
    rw [Bool.eq_iff_iff, decide_eq_true_iff, List.countP_pos_iff, Database.contains_entities]
    simp
  rw [backingDeleted, Outcome.store_after, Outcome.answer_after, writing_of_ok ha]
  · exact ⟨rfl, rfl⟩
  · rw [change_of_writes ha, h.deleteEntities_eq, h.backingPresent_eq, hids, ← hcount]
    rfl

/-- A registration in the file: a target that is registered already comes before
one without a backing record. -/
theorem register_eq_of_has (ha : a.Writes) (hb : ∀ k, db.has (.ofKind k) = true)
    (he : db.has .entities = true) (hblock : db.isBlocked .entities .insertion = false)
    (t : Target) :
    register a db t =
      if (db.entities.getD ∅).contains (.ofTarget t) then
        ⟨db, .error (.duplicateEntity t), [.registering t]⟩
      else if db.hasBackingRow t.kind (.ofString t.id) then
        ⟨db.withEntity (.ofTarget t), .ok t, [.registering t, .registered t]⟩
      else ⟨db, .error (.unknownBacking t), [.registering t]⟩ := by
  have hinsert := Database.insertEntity_eq hb he hblock t
  rw [Database.isBacked_ofTarget] at hinsert
  rw [register]
  split_ifs with hentity hrow
  · rw [writing_of_error ha.begins]
    · rfl
    · rw [change_of_writes ha, hinsert, if_pos hentity]
  · rw [writing_of_ok ha]
    · rfl
    · rw [change_of_writes ha, hinsert, if_neg hentity, if_pos hrow]
      rfl
  · rw [writing_of_error ha.begins]
    · rfl
    · rw [change_of_writes ha, hinsert, if_neg hentity, if_neg hrow]

theorem register_eq (ha : a.Writes) (h : db.Ready) :
    register a db t =
      if (db.entities.getD ∅).contains (.ofTarget t) then
        ⟨db, .error (.duplicateEntity t), [.registering t]⟩
      else if db.hasBackingRow t.kind (.ofString t.id) then
        ⟨db.withEntity (.ofTarget t), .ok t, [.registering t, .registered t]⟩
      else ⟨db, .error (.unknownBacking t), [.registering t]⟩ :=
  register_eq_of_has ha h.backing h.entities (h.isBlocked_eq_false _ _) t

theorem deleteSession_eq (ha : a.Writes) (h : db.Ready) (id : SessionId) :
    deleteSession a db id =
      if (db.sessions.getD ∅).contains (.ofString id.text) then
        ⟨db.withoutSessions (·.id == .ofString id.text), .ok (), [.sessionDeleted id]⟩
      else ⟨db, .error (.sessionNotFound id), []⟩ := by
  have hrun : a.change db .deleteSession (db.deleteSessions {} (·.id == .ofString id.text)) =
      .ok (db.withoutSessions (·.id == .ofString id.text),
        db.sessionRows.countP (·.id == .ofString id.text)) := by
    rw [change_of_writes ha, h.deleteSessions_eq]
  rw [deleteSession, writing_of_ok ha (congrArg (Except.mapError RegistryError.ofFault) hrun)]
  by_cases hid : (db.sessions.getD ∅).contains (.ofString id.text) = true
  · obtain ⟨r, hr, hkey⟩ := Table.contains_iff.mp hid
    have hsome : db.sessionRows.countP (·.id == .ofString id.text) ≠ 0 := by
      refine Nat.pos_iff_ne_zero.mp (List.countP_pos_iff.mpr ⟨r, hr, ?_⟩)
      exact beq_iff_eq.mpr hkey
    rw [if_pos hid]
    simp only [Outcome.judge, Except.bind, hsome, if_false]
  · have hno : ∀ r ∈ db.sessionRows, (r.id == .ofString id.text) = false := by
      intro r hr
      exact beq_eq_false_iff_ne.mpr fun hkey => hid (Table.contains_iff.mpr ⟨r, hr, hkey⟩)
    have hnone : db.sessionRows.countP (·.id == .ofString id.text) = 0 :=
      List.countP_eq_zero.mpr fun r hr => by simp [hno r hr]
    rw [if_neg hid]
    simp only [Outcome.judge, Except.bind, hnone, if_true, Database.withoutSessions_eq_self hno]

theorem deleteAllSessions_eq (ha : a.Writes) (h : db.Ready) :
    deleteAllSessions a db t =
      ⟨db.withoutSessions (·.owner == .ofTarget t),
        .ok (db.sessionRows.countP (·.owner == .ofTarget t)),
        [.sessionsDeleted t (db.sessionRows.countP (·.owner == .ofTarget t))]⟩ := by
  rw [deleteAllSessions]
  refine writing_of_ok ha ?_
  rw [change_of_writes ha, h.deleteSessions_eq]
  rfl

end FileStore

end OwnershipRegistry
