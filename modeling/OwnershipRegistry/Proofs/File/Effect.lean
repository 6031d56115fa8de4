import OwnershipRegistry.Proofs.File.Failure
import OwnershipRegistry.Proofs.File.Regular

/-!
What an operation on the file does when it succeeds. There is one case for each
way of success, with the answer, the guards that have been passed and the file
that is left; an operation that fails has changed nothing. Whoever asks what an
operation does to the file looks here, and not into the operation.
-/

namespace OwnershipRegistry

/-- Two files with the same tables and indexes and the same ledger, which may differ in
their rows. -/
structure Database.SameTables (db db' : Database) : Prop where
  has : ∀ n, db'.has n = db.has n
  ledger : db'.ledger = db.ledger
  strangers : db'.strangers = db.strangers
  indexes : db'.indexes = db.indexes
  blocks : db'.blocks = db.blocks

namespace Database

theorem SameTables.refl (db : Database) : db.SameTables db :=
  ⟨fun _ => rfl, rfl, rfl, rfl, rfl⟩

theorem SameTables.trans {db db' db'' : Database} (h : db.SameTables db')
    (h' : db'.SameTables db'') : db.SameTables db'' where
  has n := (h'.has n).trans (h.has n)
  ledger := h'.ledger.trans h.ledger
  strangers := h'.strangers.trans h.strangers
  indexes := h'.indexes.trans h.indexes
  blocks := h'.blocks.trans h.blocks

theorem SameTables.outline_eq {db db' : Database} (h : db.SameTables db') :
    db'.outline = db.outline := by
  have hstanding (n : TableName) : db'.standing n = db.standing n := by
    rw [standing, standing, hasStranger, hasStranger, h.has, h.strangers]
  simp only [outline, hstanding]

theorem sameTables_withBackingRow (db : Database) (k : Kind) (id : Cell) :
    db.SameTables (db.withBackingRow k id) := by
  refine ⟨fun n => has_withBackingRow _ _ _ n, ?_, ?_, ?_, ?_⟩ <;> simp [withBackingRow]

theorem sameTables_withoutSessions (db : Database) (p : SessionRow → Bool) :
    db.SameTables (db.withoutSessions p) :=
  ⟨fun n => has_withoutSessions _ _ n, rfl, rfl, rfl, rfl⟩

theorem sameTables_withoutEntities (db : Database) (p : EntityRow → Bool) :
    db.SameTables (db.withoutEntities p) :=
  ⟨fun n => has_withoutEntities _ _ n, rfl, rfl, rfl, rfl⟩

theorem sameTables_withoutBacking (db : Database) (k : Kind) (id : Cell) :
    db.SameTables (db.withoutBacking k id) := by
  refine ⟨fun n => has_withoutBacking _ _ _ n, ?_, ?_, ?_, ?_⟩ <;>
    simp [withoutBacking, withoutEntities]

end Database

namespace FileStore

open Database

/-- What an operation that succeeds has answered and made of the file. -/
inductive Effect (now : Instant) (db : Database) : Operation → Answer → Database → Prop
  | backingAdded (t : Target) (table : (db.backing t.kind).isSome)
      (free : .ofString t.id ∉ db.backingIds t.kind) :
      Effect now db (.insertBacking t) .done (db.withBackingRow t.kind (.ofString t.id))
  /-- The record is there already, or breaks another rule of its table. -/
  | backingLeftOut (t : Target) : Effect now db (.insertBacking t) .done db
  | backingMissed (t : Target) (ids : List SessionId) (listed : db.sessionIdsOf t = .ok ids)
      (absent : .ofString t.id ∉ db.backingIds t.kind) :
      Effect now db (.deleteBacking t) (.report (.empty t)) db
  | backingDeleted (t : Target) (ids : List SessionId) (listed : db.sessionIdsOf t = .ok ids)
      (present : .ofString t.id ∈ db.backingIds t.kind) :
      Effect now db (.deleteBacking t)
        (.report ⟨t, true, (db.entities.getD ∅).contains (.ofTarget t), ids⟩)
        (db.withoutBacking t.kind (.ofString t.id))
  | entityDeleted (t : Target) (ids : List SessionId) (listed : db.sessionIdsOf t = .ok ids) :
      Effect now db (.backingDeleted t)
        (.report ⟨t, false, (db.entities.getD ∅).contains (.ofTarget t), ids⟩)
        (db.withoutEntities (· == .ofTarget t))
  | registered (op : Operation) (t : Target) (asked : op = .register t ∨ op = .ensureRegistered t)
      (table : db.entities.isSome) (free : .ofTarget t ∉ db.entityRows)
      (backed : db.isBacked (.ofTarget t) = true) :
      Effect now db op (.entity t) (db.withEntity (.ofTarget t))
  | ensured (t : Target) : Effect now db (.ensureRegistered t) (.entity t) db
  | sessionMade (new : NewSession) (table : db.sessions.isSome)
      (free : ∀ x ∈ db.sessionRows, x.id ≠ .ofString new.id.text)
      (owned : .ofTarget new.target ∈ db.entityRows) :
      Effect now db (.createSession new) (.session (new.toSession now))
        (db.withSession (.ofSession (new.toSession now)))
  | sessionDeleted (id : SessionId) (present : ∃ x ∈ db.sessionRows, x.id = .ofString id.text) :
      Effect now db (.deleteSession id) .done (db.withoutSessions (·.id == .ofString id.text))
  | sessionsDeleted (t : Target) :
      Effect now db (.deleteAllSessions t)
        (.count (db.sessionRows.countP (·.owner == .ofTarget t)))
        (db.withoutSessions (·.owner == .ofTarget t))
  | looked (op : Operation) (x : Answer) (looks : op.takesLock = false) : Effect now db op x db

variable {a : Access} {now : Instant} {db db' : Database} {op : Operation} {x : Answer} {t : Target}

/-! ### Operations that succeed -/

/-- A transaction that succeeds leaves what it has done. -/
theorem writing_eq_ok {α : Type} {f : Database → Except RegistryError (Database × α)}
    {events : α → List Event} {y : α} (h : (writing a db f events).answer = .ok y) :
    f db = .ok ((writing a db f events).store, y) := by
  unfold writing Access.write at h ⊢
  cases hb : a.begins with
  | false => simp [hb] at h
  | true =>
      cases hf : f db with
      | error e => simp [hb, hf] at h
      | ok r =>
          cases hc : a.commits with
          | false => simp [hb, hf, hc] at h
          | true =>
              obtain ⟨rest, z⟩ := r
              simp only [hb, hf, hc, if_true, Except.ok.injEq] at h ⊢
              rw [h]

theorem entityPresent_eq_ok {b : Bool} (h : db.entityPresent t = .ok b) :
    b = (db.entities.getD ∅).contains (.ofTarget t) :=
  (Except.ok.inj (understood_eq_ok.mp h).2).symm

theorem insertBacking_effect {y : Bool} (h : (insertBacking a db t).answer = .ok y) :
    Effect now db (.insertBacking t) .done (insertBacking a db t).store := by
  have h := writing_eq_ok h
  split at h
  · rename_i hins
    obtain ⟨hstore, -⟩ := Prod.mk.inj (Except.ok.inj h)
    obtain ⟨c, b, hc, hb, -, hfree, rfl⟩ := insertBacking_eq_ok (change_eq_ok hins)
    obtain rfl := Option.some.inj hc
    exact hstore ▸ .backingAdded t (by rw [hb]; rfl) hfree
  -- a row that breaks a rule of its table is left out, and answered like one that is added
  · split_ifs at h
    obtain ⟨hstore, -⟩ := Prod.mk.inj (Except.ok.inj h)
    exact hstore ▸ .backingLeftOut t

theorem deleteBacking_effect {r : CascadeReport} (h : (deleteBacking a db t).answer = .ok r) :
    Effect now db (.deleteBacking t) (.report r) (deleteBacking a db t).store := by
  obtain ⟨entity, hentity, h⟩ := Except.bind_eq_ok.mp (writing_eq_ok h)
  obtain ⟨ids, hids, h⟩ := Except.bind_eq_ok.mp h
  obtain ⟨⟨rest, n⟩, hdel, h⟩ := Except.bind_eq_ok.mp h
  obtain ⟨hstore, hreport⟩ := Prod.mk.inj (Except.ok.inj h)
  have hids := Except.mapError_eq_ok.mp hids
  obtain rfl := entityPresent_eq_ok (Except.mapError_eq_ok.mp hentity)
  rw [deleteBacking, ← hstore, ← hreport]
  obtain ⟨rfl, rfl, habsent⟩ | ⟨rfl, c, hc, hpresent, rfl⟩ :=
    deleteBacking_eq_ok rfl (change_eq_ok (Except.mapError_eq_ok.mp hdel))
  · exact .backingMissed t ids hids (habsent _ rfl)
  · obtain rfl := Option.some.inj hc
    exact .backingDeleted t ids hids hpresent

theorem backingDeleted_effect {r : CascadeReport} (h : (backingDeleted a db t).answer = .ok r) :
    Effect now db (.backingDeleted t) (.report r) (backingDeleted a db t).store := by
  have hcount : decide (0 < db.entityRows.countP (· == .ofTarget t)) =
      (db.entities.getD ∅).contains (.ofTarget t) := by
    rw [Bool.eq_iff_iff, decide_eq_true_iff, List.countP_pos_iff, contains_entities]
    simp
  obtain ⟨backed, -, h⟩ := Except.bind_eq_ok.mp (writing_eq_ok h)
  obtain ⟨ids, hids, h⟩ := Except.bind_eq_ok.mp h
  obtain ⟨⟨rest, n⟩, hdel, h⟩ := Except.bind_eq_ok.mp h
  obtain ⟨hstore, hreport⟩ := Prod.mk.inj (Except.ok.inj h)
  obtain ⟨-, rfl, rfl⟩ :=
    deleteEntities_eq_ok rfl (change_eq_ok (Except.mapError_eq_ok.mp hdel))
  rw [backingDeleted, Outcome.store_after, ← hstore, ← hreport, hcount]
  exact .entityDeleted t ids (Except.mapError_eq_ok.mp hids)

theorem register_effect {t' : Target} (asked : op = .register t ∨ op = .ensureRegistered t)
    (h : (register a db t).answer = .ok t') :
    t' = t ∧ Effect now db op (.entity t) (register a db t).store := by
  have h := writing_eq_ok h
  split at h
  · rename_i hins
    obtain ⟨hstore, htarget⟩ := Prod.mk.inj (Except.ok.inj h)
    obtain ⟨r, hid, hkind, htable, -, hfree, hbacked, rfl⟩ := insertEntity_eq_ok (change_eq_ok hins)
    obtain rfl : r = .ofTarget t := by
      cases r
      cases hid
      cases hkind
      rfl
    rw [register, Outcome.store_after, ← hstore]
    exact ⟨htarget.symm, .registered op t asked htable hfree (hbacked rfl)⟩
  all_goals cases h

/-- A target that was registered already is left as it is. -/
theorem ensuring_effect {t' : Target} (h : ((register a db t).ensuring t).answer = .ok t') :
    t' = t ∧ Effect now db (.ensureRegistered t) (.entity t) (register a db t).store := by
  unfold Outcome.ensuring at h
  split at h
  · rename_i hdup
    rw [register_store_of_error hdup]
    exact ⟨(Except.ok.inj h).symm, .ensured t⟩
  · exact register_effect (.inr rfl) h

theorem createSession_effect {new : NewSession} {s : Session}
    (h : (createSession a now db new).answer = .ok s) :
    Effect now db (.createSession new) (.session s) (createSession a now db new).store := by
  have h := writing_eq_ok h
  split at h
  · rename_i hins
    obtain ⟨hstore, rfl⟩ := Prod.mk.inj (Except.ok.inj h)
    obtain ⟨r, hid, htarget, hkind, hname, hmade, htable, hfree, howned, rfl⟩ :=
      insertSession_eq_ok (change_eq_ok hins)
    obtain rfl : r = .ofSession (new.toSession now) := by
      cases r
      cases hid
      cases htarget
      cases hkind
      cases hname
      cases hmade
      rfl
    rw [createSession, ← hstore]
    exact .sessionMade new htable hfree (howned rfl)
  all_goals cases h

theorem deleteSession_effect {id : SessionId} {y : Unit}
    (h : (deleteSession a db id).answer = .ok y) :
    Effect now db (.deleteSession id) .done (deleteSession a db id).store := by
  obtain ⟨n, hn, h⟩ := Except.bind_eq_ok.mp h
  obtain ⟨hstore, hcount⟩ :=
    deleteSessions_eq_ok (change_eq_ok (Except.mapError_eq_ok.mp (writing_eq_ok hn)))
  split at h
  · cases h
  · rename_i hsome
    obtain ⟨x, hx, hid⟩ := List.countP_pos_iff.mp (Nat.pos_of_ne_zero (hcount ▸ hsome))
    rw [deleteSession, Outcome.store_judge, hstore]
    exact .sessionDeleted id ⟨x, hx, beq_iff_eq.mp hid⟩

theorem deleteAllSessions_effect {n : Nat} (h : (deleteAllSessions a db t).answer = .ok n) :
    Effect now db (.deleteAllSessions t) (.count n) (deleteAllSessions a db t).store := by
  obtain ⟨hstore, rfl⟩ :=
    deleteSessions_eq_ok (change_eq_ok (Except.mapError_eq_ok.mp (writing_eq_ok h)))
  rw [deleteAllSessions, hstore]
  exact .sessionsDeleted t

/-- Every operation that succeeds has one of the effects, whatever the file holds
and whoever else uses it. -/
theorem run_effect (h : (run a now db op).answer = .ok x) :
    Effect now db op x (run a now db op).store := by
  cases op with
  | insertBacking t =>
      obtain ⟨y, hy, rfl⟩ := Except.map_eq_ok.mp h
      exact insertBacking_effect hy
  | deleteBacking t =>
      obtain ⟨r, hr, rfl⟩ := Except.map_eq_ok.mp h
      exact deleteBacking_effect hr
  | backingDeleted t =>
      obtain ⟨r, hr, rfl⟩ := Except.map_eq_ok.mp h
      exact backingDeleted_effect hr
  | register t =>
      obtain ⟨t', ht, rfl⟩ := Except.map_eq_ok.mp h
      obtain ⟨rfl, heffect⟩ := register_effect (.inl rfl) ht
      exact heffect
  | ensureRegistered t =>
      obtain ⟨t', ht, rfl⟩ := Except.map_eq_ok.mp h
      obtain ⟨rfl, heffect⟩ := ensuring_effect ht
      rw [run, Outcome.store_map, Outcome.store_ensuring]
      exact heffect
  | createSession new =>
      obtain ⟨s, hs, rfl⟩ := Except.map_eq_ok.mp h
      exact createSession_effect hs
  | deleteSession id =>
      obtain ⟨y, hy, rfl⟩ := Except.map_eq_ok.mp h
      exact deleteSession_effect hy
  | deleteAllSessions t =>
      obtain ⟨n, hn, rfl⟩ := Except.map_eq_ok.mp h
      exact deleteAllSessions_effect hn
  | backingExists t | lookup t | listEntities | getSession id | listSessions t | verify =>
      exact .looked _ x rfl

/-! ### What no operation touches -/

theorem Effect.sameTables (h : Effect now db op x db') : db.SameTables db' := by
  cases h with
  | backingAdded => exact sameTables_withBackingRow _ _ _
  | backingDeleted => exact sameTables_withoutBacking _ _ _
  | entityDeleted => exact sameTables_withoutEntities _ _
  | sessionDeleted | sessionsDeleted => exact sameTables_withoutSessions _ _
  | registered | sessionMade => exact ⟨fun n => by simp, rfl, rfl, rfl, rfl⟩
  | backingLeftOut | backingMissed | ensured | looked => exact .refl _

/-- Operations change rows of backing records, entities and sessions, and nothing
else. -/
theorem run_sameTables (a : Access) (now : Instant) (db : Database) (op : Operation) :
    db.SameTables (run a now db op).store := by
  cases h : (run a now db op).answer with
  | error e =>
      rw [run_store_of_error h]
      exact .refl db
  | ok x => exact (run_effect h).sameTables

end FileStore

end OwnershipRegistry
