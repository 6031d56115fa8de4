import OwnershipRegistry.Proofs.File.Migrations
import OwnershipRegistry.Proofs.File.Shared

/-!
What opening a store leaves as it was. Tables that are not there may be made,
empty, and the ledger may get further records; no row that is there goes or
changes, whatever the configuration, whatever stands in the way and wherever the
opening stops.
-/

namespace OwnershipRegistry

namespace Database

/-- A table is what it was, or was not there and has been made. -/
def Filled {α : Type} (made : α) (old new : Option α) : Prop :=
  new = old ∨ old = none ∧ new = some made

/-- All rows of a file are there in another, which may have further tables,
without rows, further indexes and further records in its ledger. -/
structure Kept (db db' : Database) : Prop where
  backing : ∀ k, Filled {} (db.backing k) (db'.backing k)
  entities : Filled ∅ db.entities db'.entities
  sessions : Filled ∅ db.sessions db'.sessions
  ledger : ∀ l, db.ledger = some l → ∃ l', db'.ledger = some l' ∧ l'.form = l.form ∧
    ∀ r ∈ l.applied.rows, r ∈ l'.applied.rows
  strangers : db'.strangers = db.strangers
  indexes : ∀ i ∈ db.indexes, i ∈ db'.indexes
  blocks : db'.blocks = db.blocks

variable {a : Access} {now : Instant} {db db' db'' : Database} {m : Migration}
  {ms : List Migration}

theorem Filled.refl {α : Type} (made : α) (old : Option α) : Filled made old old := .inl rfl

theorem Filled.trans {α : Type} {made : α} {x y z : Option α} (h : Filled made x y)
    (h' : Filled made y z) : Filled made x z := by
  obtain rfl | ⟨hx, rfl⟩ := h
  · exact h'
  · obtain rfl | ⟨hy, -⟩ := h'
    · exact .inr ⟨hx, rfl⟩
    · cases hy

theorem Filled.getD_eq {α : Type} {made : α} {x y : Option α} (h : Filled made x y) :
    y.getD made = x.getD made := by
  obtain rfl | ⟨rfl, rfl⟩ := h <;> rfl

theorem Kept.refl (db : Database) : db.Kept db where
  backing _ := .refl ..
  entities := .refl ..
  sessions := .refl ..
  ledger l hl := ⟨l, hl, rfl, fun _ hr => hr⟩
  strangers := rfl
  indexes _ hi := hi
  blocks := rfl

theorem Kept.trans (h : db.Kept db') (h' : db'.Kept db'') : db.Kept db'' where
  backing k := (h.backing k).trans (h'.backing k)
  entities := h.entities.trans h'.entities
  sessions := h.sessions.trans h'.sessions
  ledger l hl := by
    obtain ⟨l', hl', hform, hrows⟩ := h.ledger l hl
    obtain ⟨l'', hl'', hform', hrows'⟩ := h'.ledger l' hl'
    exact ⟨l'', hl'', hform'.trans hform, fun r hr => hrows' r (hrows r hr)⟩
  strangers := h'.strangers.trans h.strangers
  indexes i hi := h'.indexes i (h.indexes i hi)
  blocks := h'.blocks.trans h.blocks

theorem none_of_not_hasTable {n : TableName} {α : Type} {t : Option α}
    (hn : db.has n = t.isSome) (h : ¬db.hasTable n = true) : t = none := by
  have hfree := has_eq_false_of_not_hasTable h
  rw [hn] at hfree
  exact Option.isNone_iff_eq_none.mp (by simpa using hfree)

theorem kept_setBacking {k : Kind} (h : db.backing k = none) :
    db.Kept (db.setBacking k (some {})) where
  backing k' := by
    rw [backing_setBacking]
    split_ifs with hk
    · exact .inr ⟨hk ▸ h, rfl⟩
    · exact .refl ..
  entities := .inl (entities_setBacking ..)
  sessions := .inl (sessions_setBacking ..)
  ledger l hl := ⟨l, (ledger_setBacking ..).trans hl, rfl, fun _ hr => hr⟩
  strangers := strangers_setBacking ..
  indexes i hi := by rwa [indexes_setBacking]
  blocks := blocks_setBacking ..

theorem kept_provideBacking (a : Access) (ks : List Kind) (db : Database) :
    db.Kept (db.provideBacking a ks).store := by
  induction ks generalizing db with
  | nil => exact .refl db
  | cons k ks ih =>
      unfold provideBacking
      split
      · exact .refl db
      · rename_i db' hdb'
        obtain ⟨-, ⟨-, rfl⟩ | ⟨htable, -, -, -, -, rfl⟩⟩ := provide_eq_ok.mp hdb'
        · exact ih db'
        · have hnone := none_of_not_hasTable (has_ofKind db k) (Bool.eq_false_iff.mp htable)
          exact (kept_setBacking hnone).trans (ih _)

theorem kept_withLedger (db : Database) : db.Kept db.withLedger := by
  unfold withLedger
  split
  · exact .refl db
  · rename_i htable
    have hnone : db.ledger = none := none_of_not_hasTable rfl htable
    refine ⟨fun k => .inl (by cases k <;> rfl), .refl .., .refl .., fun l hl => ?_, rfl,
      fun _ hi => hi, rfl⟩
    rw [hnone] at hl
    cases hl

theorem kept_withMigration (now : Instant) (hm : m.Fits db) :
    db.Kept (db.withMigration now m) where
  backing k := .inl (backing_withMigration k)
  entities := by
    cases m with
    | addEntities => exact .inr ⟨none_of_not_hasTable rfl (Bool.eq_false_iff.mp hm.1), rfl⟩
    | addSessions => exact .inl rfl
  sessions := by
    cases m with
    | addEntities => exact .inl rfl
    | addSessions => exact .inr ⟨none_of_not_hasTable rfl (Bool.eq_false_iff.mp hm.1), rfl⟩
  ledger l hl := by
    rw [withMigration, hl]
    exact ⟨_, rfl, rfl, fun r hr => Table.mem_insert_of_mem hr⟩
  strangers := strangers_withMigration
  indexes i hi := by
    rw [indexes_withMigration]
    exact List.mem_append_left _ hi
  blocks := blocks_withMigration

theorem kept_withMigrations (now : Instant) (hfit : db.Fit ms) (hms : ms.Nodup) :
    db.Kept (db.withMigrations now ms) := by
  induction ms generalizing db with
  | nil => exact .refl db
  | cons m ms ih =>
      obtain ⟨-, hfits, hrest⟩ := hfit.uncons hms now
      exact (kept_withMigration now hfits).trans (ih hrest (List.nodup_cons.mp hms).2)

theorem Progress.kept {o : Outcome Database (List Migration)} (h : Progress now db ms o)
    (hms : ms.Nodup) : db.Kept o.store := by
  cases h with
  | completed events fit told => exact kept_withMigrations now fit (hms.filter _)
  | stopped e events before after m order fit told =>
      have hbefore : before.Nodup := (List.nodup_append.mp (order ▸ hms)).1
      exact kept_withMigrations now fit (hbefore.filter _)

theorem kept_migrate (a : Access) (now : Instant) (db : Database) :
    db.Kept (db.migrate a now).store := by
  obtain ⟨e, he⟩ | hprogress := migrate_progress a now db
  · rw [he]
    exact .refl db
  · exact (kept_withLedger db).trans (hprogress.kept Migration.nodup_all)

theorem kept_prepare (a : Access) (now : Instant) (c : StoreConfig) (db : Database) :
    db.Kept (db.prepare a now c).store := by
  unfold prepare
  generalize (if c.provisionBacking then Kind.all else []) = ks
  have hbacking := kept_provideBacking a ks db
  simp only
  split
  · exact hbacking
  · have hmigrate := hbacking.trans (kept_migrate a now _)
    split <;> exact hmigrate

/-- Opening a store on tables in memory keeps every row. -/
theorem kept_openStore (a : Access) (now : Instant) (c : StoreConfig) (journal : Option String)
    (db : Database) : db.Kept (db.openStore a now c journal).store :=
  kept_prepare a now c db

/-- The tables of the backing records of all kinds are there, or none of them
is. -/
def Paired (db : Database) : Prop := db.has .bots = db.has .users

/-- The tables of the backing records are made together, where nothing else has their
names. -/
theorem Paired.provideBacking {checked : Bool} (h : db.Paired) (hdb : db.Regular checked)
    (a : Access) : (db.provideBacking a Kind.all).store.Paired := by
  have htable (n : TableName) : db.hasTable n = db.has n := by
    rw [hasTable, hdb.hasStranger_eq_false, Bool.or_false]
  rw [Kind.all, Database.provideBacking]
  split
  · exact h
  · rename_i start hstart
    obtain ⟨hreads, ⟨hthere, rfl⟩ | ⟨habsent, -, hchanges, hbegins, hcommits, rfl⟩⟩ :=
      provide_eq_ok.mp hstart
    · have husers : start.hasTable .users = true := by
        rw [htable, ← show start.has .bots = start.has .users from h, ← htable]
        exact hthere
      have hnext : provide a start (.ofKind .user) (start.setBacking .user (some {})) = .ok start :=
        provide_eq_ok.mpr ⟨hreads, .inl ⟨husers, rfl⟩⟩
      rw [Database.provideBacking, hnext]
      exact h
    · have husers : (db.setBacking .bot (some {})).hasTable .users = false := by
        refine (htable .users).trans ?_
        rw [← show db.has .bots = db.has .users from h, ← htable]
        exact habsent
      have hnext : provide a (db.setBacking .bot (some {})) (.ofKind .user)
          ((db.setBacking .bot (some {})).setBacking .user (some {})) =
          .ok ((db.setBacking .bot (some {})).setBacking .user (some {})) :=
        provide_eq_ok.mpr
          ⟨hreads, .inr ⟨husers, hdb.hasIndex_eq_false .users, hchanges, hbegins, hcommits, rfl⟩⟩
      rw [Database.provideBacking, hnext]
      rfl

theorem Paired.prepare {checked : Bool} (h : db.Paired) (hdb : db.Regular checked) (a : Access)
    (now : Instant) (c : StoreConfig) : (db.prepare a now c).store.Paired := by
  have hmigrate : ∀ start : Database, start.Paired → (start.migrate a now).store.Paired := by
    intro start hstart
    have hbots : (start.migrate a now).store.bots = start.bots := backing_migrate a now start .bot
    have husers : (start.migrate a now).store.users = start.users :=
      backing_migrate a now start .user
    rw [Paired, has, has, hbots, husers]
    exact hstart
  have hstart :
      (db.provideBacking a (if c.provisionBacking then Kind.all else [])).store.Paired := by
    split_ifs
    · exact h.provideBacking hdb a
    · exact h
  unfold Database.prepare
  simp only
  split
  · exact hstart
  · split <;> exact hmigrate _ hstart

end Database

/-! ### Opening a store on the shared file -/

namespace SharedFile

variable {f : SharedFile} {db : Database}

/-- Every row of the file is kept, whoever else uses it. -/
theorem kept_openStore (f : SharedFile) (now : Instant) (c : StoreConfig)
    (hf : f.database = some db) :
    ∃ db', (f.openStore now c).store.database = some db' ∧ db.Kept db' := by
  unfold openStore
  simp only
  split
  · exact ⟨db, hf, .refl db⟩
  · rename_i f' hjournal
    have hsame : f'.database = some db := by
      split_ifs at hjournal
      · rw [(setWrittenAhead_eq_ok hjournal).1, hf]
      · rw [← Except.ok.inj hjournal, hf]
    rw [hsame]
    simp only [Outcome.store_after, database_put]
    exact ⟨_, rfl, Database.kept_prepare f'.access now c db⟩

@[simp] theorem visit_put (f : SharedFile) (db : Database) : (f.put db).visit = f.visit := rfl

theorem access_of_alone (h : f.visit = none) : f.access = .free := by
  rw [access, h]
  rfl

/-- Where nobody else uses the file, its tables alone decide what comes of
opening a store on it. -/
theorem openStore_alone (hf : f.database = some db) (hv : f.visit = none) (now : Instant)
    (c : StoreConfig) :
    (f.openStore now c).store.database = some (db.prepare .free now c).store ∧
      (f.openStore now c).store.visit = none ∧
      (f.openStore now c).answer = (db.prepare .free now c).answer := by
  have hjournal : ∃ f' : SharedFile, (if c.writeAhead then f.setWrittenAhead else .ok f) = .ok f' ∧
      f'.database = some db ∧ f'.visit = none := by
    have hreads : f.unreadable = none := by
      rw [unreadable, access_of_alone hv, hf]
      rfl
    split_ifs
    · rw [setWrittenAhead, hreads]
      simp only
      split_ifs with hahead hvisit
      · exact ⟨f, rfl, hf, hv⟩
      · rw [hv] at hvisit
        cases hvisit
      · exact ⟨_, rfl, hf, hv⟩
    · exact ⟨f, rfl, hf, hv⟩
  obtain ⟨f', hf', hdb, hvisit⟩ := hjournal
  rw [openStore]
  simp only [hf', hdb, access_of_alone hvisit, Outcome.store_after, Outcome.answer_after,
    database_put, visit_put, hvisit]
  exact ⟨trivial, trivial, trivial⟩

end SharedFile

end OwnershipRegistry
