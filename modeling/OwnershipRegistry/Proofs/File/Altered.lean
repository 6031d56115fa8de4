import OwnershipRegistry.File.Foreign
import OwnershipRegistry.File.Migration
import OwnershipRegistry.File.Opening
import OwnershipRegistry.File.Recall
import OwnershipRegistry.Proofs.File.Transactions

/-!
What one step makes of the file. `Altered` lists what a step may make of it as
long as references are kept: a store's operation, a row added or taken away by
another program, or one of the tables made in opening a store. What holds of a
file without tables and of every file that is altered holds of all files that
come about so.
-/

namespace OwnershipRegistry

/-- The names that a migration needs are free: neither a table nor an index has the
name of its table or of one of its indexes. -/
structure Migration.Fits (m : Migration) (db : Database) : Prop where
  table : db.hasTable m.table = false
  unindexed : db.hasIndex m.table.text = false
  indexes : ∀ name ∈ m.table.indexes, db.hasStranger name = false ∧ db.hasIndex name = false

namespace Database

/-- One step of what becomes of a file while references are kept. Unless the
kinds of new entities are `checked`, another program may have set that rule
aside. -/
inductive Altered (checked : Bool) (db : Database) : Database → Prop
  | same : Altered checked db db
  | backingAdded (k : Kind) (id : Cell) (table : (db.backing k).isSome)
      (free : id ∉ db.backingIds k) : Altered checked db (db.withBackingRow k id)
  | backingRemoved (k : Kind) (id : Cell) (present : id ∈ db.backingIds k) :
      Altered checked db (db.withoutBacking k id)
  | entityAdded (r : EntityRow) (table : db.entities.isSome)
      (listed : checked = true → ∃ k : Kind, r.kind = .ofString k.tag)
      (free : r ∉ db.entityRows) (backed : db.isBacked r = true) :
      Altered checked db (db.withEntity r)
  | entitiesRemoved (p : EntityRow → Bool) : Altered checked db (db.withoutEntities p)
  | sessionAdded (s : SessionRow) (table : db.sessions.isSome)
      (free : ∀ x ∈ db.sessionRows, x.id ≠ s.id) (owned : s.owner ∈ db.entityRows) :
      Altered checked db (db.withSession s)
  | sessionsRemoved (p : SessionRow → Bool) : Altered checked db (db.withoutSessions p)
  | backingTableMade (k : Kind) (absent : db.backing k = none) :
      Altered checked db (db.setBacking k (some {}))
  | ledgerMade (absent : db.ledger = none) : Altered checked db { db with ledger := some {} }
  | migrated (m : Migration) (l : Ledger) (now : Instant) (absent : db.has m.table = false)
      (listing : db.ledger = some l) :
      Altered checked db { m.addTable db with
        ledger := some { l with applied := l.applied.insert ⟨m.id, now.offsetText⟩ } }
  | forgotten (l : Ledger) (p : LedgerRow → Bool) (listing : db.ledger = some l) :
      Altered checked db { db with ledger := some { l with applied := l.applied.keep p } }

/-- Any number of steps of what becomes of a file. -/
inductive Becomes (checked : Bool) (db : Database) : Database → Prop
  | refl : Becomes checked db db
  | tail {db' db'' : Database} : Becomes checked db db' → Altered checked db' db'' →
      Becomes checked db db''

variable {db db' db'' : Database} {checked : Bool}

theorem Altered.becomes (h : Altered checked db db') : Becomes checked db db' := .tail .refl h

theorem Becomes.trans (h : Becomes checked db db') (h' : Becomes checked db' db'') :
    Becomes checked db db'' := by
  induction h' with
  | refl => exact h
  | tail _ step ih => exact ih.tail step

/-- What holds of a file and is kept by every step holds of all that becomes of
the file. -/
theorem Becomes.invariant {P : Database → Prop} (h : Becomes checked db db') (hdb : P db)
    (step : ∀ a b, P a → Altered checked a b → P b) : P db' := by
  induction h with
  | refl => exact hdb
  | tail _ hstep ih => exact step _ _ ih hstep

/-! ### Opening a store -/

@[simp] theorem backing_addTable (m : Migration) (db : Database) (k : Kind) :
    (m.addTable db).backing k = db.backing k := by
  cases m <;> cases k <;> rfl

@[simp] theorem ledger_addTable (m : Migration) (db : Database) :
    (m.addTable db).ledger = db.ledger := by
  cases m <;> rfl

@[simp] theorem strangers_addTable (m : Migration) (db : Database) :
    (m.addTable db).strangers = db.strangers := by
  cases m <;> rfl

@[simp] theorem indexes_addTable (m : Migration) (db : Database) :
    (m.addTable db).indexes = db.indexes ++ m.indexes := by
  cases m <;> rfl

@[simp] theorem blocks_addTable (m : Migration) (db : Database) :
    (m.addTable db).blocks = db.blocks := by
  cases m <;> rfl

theorem indexFault?_eq_none {name : String} :
    Migration.indexFault? db name = none ↔
      db.hasStranger name = false ∧ db.hasIndex name = false := by
  unfold Migration.indexFault?
  cases db.hasStranger name <;> cases db.hasIndex name <;> simp

/-- A migration is applied where the file may be changed and the names that it needs
are free. -/
theorem up_eq_ok {m : Migration} {a : Access} :
    m.up a db = .ok db' ↔ a.changes = true ∧ m.Fits db ∧ db' = m.addTable db := by
  have hindexes : m.table.indexes.findSome? (Migration.indexFault? db) = none ↔
      ∀ name ∈ m.table.indexes, db.hasStranger name = false ∧ db.hasIndex name = false := by
    simp only [List.findSome?_eq_none_iff, indexFault?_eq_none]
  unfold Migration.up
  constructor
  · intro h
    split_ifs at h with htable hindex hchanges
    split at h
    · cases h
    · rename_i hnone
      refine ⟨by simpa using hchanges, ⟨?_, ?_, hindexes.mp hnone⟩, (Except.ok.inj h).symm⟩
      · exact Bool.eq_false_iff.mpr htable
      · exact Bool.eq_false_iff.mpr hindex
  · rintro ⟨hchanges, hfits, rfl⟩
    simp [hchanges, hfits.table, hfits.unindexed, hindexes.mpr hfits.indexes]

theorem record_eq_ok {m : Migration} {now : Instant} (h : db.record m now = .ok db') :
    ∃ l, db.ledger = some l ∧ db' = { db with
      ledger := some { l with applied := l.applied.insert ⟨m.id, now.offsetText⟩ } } := by
  rw [record, understood_eq_ok] at h
  obtain ⟨hu, h⟩ := h
  have hl : db.has .ledger = true := has_of_refusal_eq_none rfl hu
  obtain ⟨l, hl⟩ := Option.isSome_iff_exists.mp hl
  simp only [hl, Option.getD_some] at h
  split at h
  · cases h
  · split at h
    · cases h
    · exact ⟨l, hl, (Except.ok.inj h).symm⟩

/-- A migration is applied and recorded in one step or leaves the file as it
was. -/
theorem applyMigration_altered (a : Access) (now : Instant) (db : Database) (m : Migration) :
    Altered checked db (db.applyMigration a now m).store := by
  unfold applyMigration
  split
  · exact .same
  · split
    · exact .same
    · exact .same
    · simp only
      split
      · exact .same
      · rename_i db' hup
        split
        · obtain ⟨mid, hmid, hrec⟩ := Except.bind_eq_ok.mp hup
          obtain ⟨-, hfits, rfl⟩ := up_eq_ok.mp hmid
          obtain ⟨l, hl, rfl⟩ := record_eq_ok hrec
          have habsent : db.has m.table = false := (Bool.or_eq_false_iff.mp hfits.table).1
          rw [ledger_addTable] at hl
          exact .migrated m l now habsent hl
        · exact .same

theorem applyMigrations_becomes (a : Access) (now : Instant) (ms : List Migration)
    (db : Database) : Becomes checked db (db.applyMigrations a now ms).store := by
  induction ms generalizing db with
  | nil => exact .refl
  | cons m ms ih =>
      have hfirst : Becomes checked db (db.applyMigration a now m).store :=
        (applyMigration_altered a now db m).becomes
      simp only [applyMigrations]
      split
      · exact hfirst
      · exact hfirst.trans (ih _)

theorem has_eq_false_of_not_hasTable {n : TableName} (h : ¬db.hasTable n = true) :
    db.has n = false := by
  rw [hasTable, Bool.or_eq_true, not_or] at h
  exact Bool.eq_false_iff.mpr h.1

/-- A table is provided where it is there or can be made: its name is no index's and
the file may be changed now. -/
theorem provide_eq_ok {a : Access} {n : TableName} {made : Database} :
    provide a db n made = .ok db' ↔ a.reads = true ∧ (db.hasTable n = true ∧ db' = db ∨
      db.hasTable n = false ∧ db.hasIndex n.text = false ∧ a.changes = true ∧ a.begins = true ∧
        a.commits = true ∧ db' = made) := by
  unfold provide
  cases a.reads <;> cases db.hasTable n <;> cases db.hasIndex n.text <;> cases a.changes <;>
    cases a.begins <;> cases a.commits <;> simp [eq_comm]

/-- The file with a ledger of migrations; one that is there stays. -/
def withLedger (db : Database) : Database :=
  if db.hasTable .ledger then db else { db with ledger := some {} }

theorem provide_ledger_eq_ok {a : Access}
    (h : provide a db .ledger { db with ledger := some {} } = .ok db') : db' = db.withLedger := by
  rw [withLedger]
  obtain ⟨-, ⟨htable, rfl⟩ | ⟨htable, -, -, -, -, rfl⟩⟩ := provide_eq_ok.mp h
  · rw [if_pos htable]
  · rw [if_neg (Bool.eq_false_iff.mp htable)]

theorem withLedger_altered (db : Database) : Altered checked db db.withLedger := by
  unfold withLedger
  split
  · exact .same
  · rename_i htable
    have hfree := has_eq_false_of_not_hasTable htable
    exact .ledgerMade (by simpa [has] using hfree)

theorem provide_backing_altered {a : Access} {k : Kind}
    (h : provide a db (.ofKind k) (db.setBacking k (some {})) = .ok db') :
    Altered checked db db' := by
  obtain ⟨-, ⟨-, rfl⟩ | ⟨htable, -, -, -, -, rfl⟩⟩ := provide_eq_ok.mp h
  · exact .same
  · have hfree : db.has (.ofKind k) = false := (Bool.or_eq_false_iff.mp htable).1
    rw [has_ofKind, Option.isSome_eq_false_iff, Option.isNone_iff_eq_none] at hfree
    exact .backingTableMade k hfree

theorem provideBacking_becomes (a : Access) (ks : List Kind) (db : Database) :
    Becomes checked db (db.provideBacking a ks).store := by
  induction ks generalizing db with
  | nil => exact .refl
  | cons k ks ih =>
      unfold provideBacking
      split
      · exact .refl
      · rename_i db' hdb'
        exact (provide_backing_altered hdb').becomes.trans (ih db')

theorem migrate_becomes (a : Access) (now : Instant) (db : Database) :
    Becomes checked db (db.migrate a now).store := by
  unfold migrate
  split
  · exact .refl
  · rename_i db' hledger
    rw [provide_ledger_eq_ok hledger]
    exact (withLedger_altered db).becomes.trans (applyMigrations_becomes a now _ _)

/-- Whatever comes of opening a store, the file has gone through steps that keep
references. -/
theorem prepare_becomes (a : Access) (now : Instant) (c : StoreConfig) (db : Database) :
    Becomes checked db (db.prepare a now c).store := by
  unfold prepare
  generalize hks : (if c.provisionBacking then Kind.all else []) = ks
  have hstart : Becomes checked db (db.provideBacking a ks).store := provideBacking_becomes a ks db
  simp only
  split
  · exact hstart
  · have hmigrate := hstart.trans (migrate_becomes a now _)
    split <;> exact hmigrate

/-! ### Changes of rows -/

theorem insertBacking_altered {rules : Rules} {k : Kind} {id : Option Cell}
    (h : db.insertBacking rules k id = .ok db') : Altered checked db db' := by
  obtain ⟨c, b, -, hb, -, hfree, rfl⟩ := insertBacking_eq_ok h
  exact .backingAdded k c (by rw [hb]; rfl) hfree

theorem deleteBacking_altered {rules : Rules} {k : Kind} {id : Option Cell} {n : Nat}
    (hr : rules.references = true) (h : db.deleteBacking rules k id = .ok (db', n)) :
    Altered checked db db' := by
  obtain ⟨-, rfl, -⟩ | ⟨-, c, -, hc, rfl⟩ := deleteBacking_eq_ok hr h
  · exact .same
  · exact .backingRemoved k c hc

theorem insertEntity_altered {rules : Rules} {id kind : Option Cell}
    (hr : rules.references = true) (hk : checked = true → rules.kinds = true)
    (h : db.insertEntity rules id kind = .ok db') : Altered checked db db' := by
  obtain ⟨r, -, -, ht, hlisted, hfree, hbacked, rfl⟩ := insertEntity_eq_ok h
  exact .entityAdded r ht (fun hc => hlisted (hk hc)) hfree (hbacked hr)

theorem insertSession_altered {rules : Rules}
    {id targetId targetKind name createdAt : Option Cell} (hr : rules.references = true)
    (h : db.insertSession rules id targetId targetKind name createdAt = .ok db') :
    Altered checked db db' := by
  obtain ⟨s, -, -, -, -, -, ht, hfree, howned, rfl⟩ := insertSession_eq_ok h
  exact .sessionAdded s ht hfree (howned hr)

theorem forget_altered {id : Option Cell} {n : Nat} (h : db.forget id = .ok (db', n)) :
    Altered checked db db' := by
  rw [forget, understood_eq_ok] at h
  obtain ⟨hu, h⟩ := h
  have hl : db.has .ledger = true := has_of_refusal_eq_none rfl hu
  obtain ⟨l, hl⟩ := Option.isSome_iff_exists.mp hl
  simp only [hl, Option.getD_some] at h
  split at h
  · cases h
  · obtain ⟨rfl, -⟩ := Prod.mk.inj (Except.ok.inj h)
    exact .forgotten l _ hl

/-- A change of rows by another program that keeps references. -/
theorem change_altered {rules : Rules} {c : ForeignChange} {n : Option Nat}
    (hr : rules.references = true) (hk : checked = true → rules.kinds = true)
    (hc : c.isStructural = false) (h : db.change rules c = .ok (db', n)) :
    Altered checked db db' := by
  cases c with
  | insertBacking table id =>
      obtain ⟨k, -, h⟩ := Except.bind_eq_ok.mp h
      obtain ⟨rest, hrest, h⟩ := Except.bind_eq_ok.mp h
      obtain ⟨rfl, -⟩ := Prod.mk.inj (Except.ok.inj h)
      exact insertBacking_altered hrest
  | deleteBacking table id =>
      obtain ⟨k, -, h⟩ := Except.bind_eq_ok.mp h
      obtain ⟨⟨rest, n⟩, hrest, h⟩ := Except.bind_eq_ok.mp h
      obtain ⟨rfl, -⟩ := Prod.mk.inj (Except.ok.inj h)
      exact deleteBacking_altered hr hrest
  | insertEntity id kind =>
      obtain ⟨rest, hrest, h⟩ := Except.map_eq_ok.mp h
      obtain ⟨rfl, -⟩ := Prod.mk.inj h
      exact insertEntity_altered hr hk hrest
  | deleteEntity id kind =>
      obtain ⟨⟨rest, n⟩, hrest, h⟩ := Except.bind_eq_ok.mp h
      obtain ⟨rfl, -⟩ := Prod.mk.inj (Except.ok.inj h)
      obtain ⟨-, rfl, -⟩ := deleteEntities_eq_ok hr hrest
      exact .entitiesRemoved _
  | insertSession id targetId targetKind name createdAt =>
      obtain ⟨rest, hrest, h⟩ := Except.map_eq_ok.mp h
      obtain ⟨rfl, -⟩ := Prod.mk.inj h
      exact insertSession_altered hr hrest
  | deleteSession id =>
      obtain ⟨⟨rest, n⟩, hrest, h⟩ := Except.bind_eq_ok.mp h
      obtain ⟨rfl, -⟩ := Prod.mk.inj (Except.ok.inj h)
      obtain ⟨rfl, -⟩ := deleteSessions_eq_ok hrest
      exact .sessionsRemoved _
  | forgetMigration id =>
      obtain ⟨⟨rest, n⟩, hrest, h⟩ := Except.map_eq_ok.mp h
      obtain ⟨rfl, -⟩ := Prod.mk.inj h
      exact forget_altered hrest
  | dropTable table => cases hc
  | block table c => cases hc
  | unblock table c => cases hc

end Database

/-! ### Operations of a store -/

namespace FileStore

open Database

variable {a : Access} {db : Database} {checked : Bool}

theorem insertBacking_store_altered (t : Target) :
    Altered checked db (insertBacking a db t).store := by
  refine store_writing (Altered checked db) .same fun db' x h => ?_
  -- a row that breaks a rule for new rows is left out and answered like one that is added
  split at h
  · rename_i hins
    obtain ⟨rfl, -⟩ := Prod.mk.inj (Except.ok.inj h)
    exact insertBacking_altered (change_eq_ok hins)
  · split_ifs at h
    obtain ⟨rfl, -⟩ := Prod.mk.inj (Except.ok.inj h)
    exact .same

theorem deleteBacking_store_altered (t : Target) :
    Altered checked db (deleteBacking a db t).store := by
  refine store_writing (Altered checked db) .same fun db' x h => ?_
  obtain ⟨entity, -, h⟩ := Except.bind_eq_ok.mp h
  obtain ⟨sessions, -, h⟩ := Except.bind_eq_ok.mp h
  obtain ⟨⟨rest, n⟩, hdel, h⟩ := Except.bind_eq_ok.mp h
  obtain ⟨rfl, -⟩ := Prod.mk.inj (Except.ok.inj h)
  exact deleteBacking_altered rfl (change_eq_ok (Except.mapError_eq_ok.mp hdel))

theorem backingDeleted_store_altered (t : Target) :
    Altered checked db (backingDeleted a db t).store := by
  refine store_writing (Altered checked db) .same fun db' x h => ?_
  obtain ⟨backed, -, h⟩ := Except.bind_eq_ok.mp h
  obtain ⟨sessions, -, h⟩ := Except.bind_eq_ok.mp h
  obtain ⟨⟨rest, n⟩, hdel, h⟩ := Except.bind_eq_ok.mp h
  obtain ⟨rfl, -⟩ := Prod.mk.inj (Except.ok.inj h)
  obtain ⟨-, rfl, -⟩ := deleteEntities_eq_ok rfl (change_eq_ok (Except.mapError_eq_ok.mp hdel))
  exact .entitiesRemoved _

theorem register_store_altered (t : Target) : Altered checked db (register a db t).store := by
  refine store_writing (Altered checked db) .same fun db' x h => ?_
  split at h
  · rename_i hins
    obtain ⟨rfl, -⟩ := Prod.mk.inj (Except.ok.inj h)
    exact insertEntity_altered rfl (fun _ => rfl) (change_eq_ok hins)
  all_goals cases h

theorem createSession_store_altered (now : Instant) (new : NewSession) :
    Altered checked db (createSession a now db new).store := by
  refine store_writing (Altered checked db) .same fun db' x h => ?_
  split at h
  · rename_i hins
    obtain ⟨rfl, -⟩ := Prod.mk.inj (Except.ok.inj h)
    exact insertSession_altered rfl (change_eq_ok hins)
  all_goals cases h

theorem deleteSessions_writing_altered (p : SessionRow → Bool) (events : Nat → List Event) :
    Altered checked db (writing a db (fun db =>
      (a.change db .deleteSession (db.deleteSessions {} p)).mapError .ofFault) events).store := by
  refine store_writing (Altered checked db) .same fun db' n h => ?_
  obtain ⟨rfl, -⟩ := deleteSessions_eq_ok (change_eq_ok (Except.mapError_eq_ok.mp h))
  exact .sessionsRemoved p

/-- Every operation alters the file in one step, or leaves it as it was. -/
theorem run_altered (a : Access) (now : Instant) (db : Database) (op : Operation) :
    Altered checked db (run a now db op).store := by
  cases op with
  | insertBacking t => exact insertBacking_store_altered t
  | deleteBacking t => exact deleteBacking_store_altered t
  | backingDeleted t => exact backingDeleted_store_altered t
  | register t => exact register_store_altered t
  | ensureRegistered t =>
      rw [run, Outcome.store_map, Outcome.store_ensuring]
      exact register_store_altered t
  | createSession new => exact createSession_store_altered now new
  | deleteSession id => exact deleteSessions_writing_altered _ _
  | deleteAllSessions t => exact deleteSessions_writing_altered _ _
  | backingExists t | lookup t | listEntities | getSession id | listSessions t | verify =>
      exact .same

/-- So does an operation of a store that remembers an outline of the file. -/
theorem runKnowing_altered (known : Outline) (a : Access) (now : Instant) (db : Database)
    (op : Operation) : Altered checked db (runKnowing known a now db op).1.store := by
  simp only [runKnowing]
  split
  · exact .same
  · exact run_altered a now db op

end FileStore

end OwnershipRegistry
