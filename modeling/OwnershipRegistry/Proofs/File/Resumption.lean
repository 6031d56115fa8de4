import OwnershipRegistry.Proofs.File.Applied

/-!
Bringing a file up to date, whatever it holds. A run applies what the ledger does
not list, in order, each migration wholly or not at all, and stops at the first
that fails; run again it does nothing more. Once whatever stood in the way of a
run that failed is gone, the next run finishes the work, and the file has the
tables, the indexes and the records that it would have if nothing had stood in
the way in the first place.
-/

namespace OwnershipRegistry

/-- Something that is done about what stands in the way of migrations. -/
inductive Remedy
  /-- The ledger takes records again. -/
  | unblocked
  /-- The ledger gets its declared columns. -/
  | mended
  /-- Unrelated tables of a name go away, with the indexes on them. -/
  | removed (name : String)
  /-- Indexes of a name go away. -/
  | unindexed (name : String)
  /-- The table that a migration is to bring goes away. -/
  | dropped (m : Migration)
  deriving DecidableEq, Repr

namespace Remedy

def apply (r : Remedy) (db : Database) : Database :=
  match r with
  | unblocked => db.unblock TableName.ledger.text .insertion
  | mended => { db with ledger := db.ledger.map fun l => { l with form := .declared } }
  | removed name =>
    { db with
      strangers := db.strangers.filter fun s => !sameName name s
      indexes := db.indexes.filter fun i => !sameName name i.table }
  | unindexed name => { db with indexes := db.indexes.filter fun i => !sameName name i.name }
  | dropped m => db.drop m.table

def applyAll (rs : List Remedy) (db : Database) : Database := rs.foldl (fun db r => r.apply db) db

/-- A remedy leaves what some migrations have brought. -/
def Spares (ms : List Migration) : Remedy → Prop
  | dropped m => m ∉ ms
  | removed name => ∀ m ∈ ms, sameName name m.table.text = false
  | unindexed name => ∀ m ∈ ms, ∀ i ∈ m.table.indexes, sameName name i = false
  | _ => True

theorem Spares.mono {r : Remedy} {ms ms' : List Migration} (h : r.Spares ms)
    (hsub : ∀ m ∈ ms', m ∈ ms) : r.Spares ms' := by
  cases r with
  | unblocked | mended => trivial
  | removed | unindexed => exact fun m hm => h m (hsub m hm)
  | dropped m => exact fun hm => h (hsub m hm)

end Remedy

namespace Database

variable {a : Access} {now : Instant} {db db' left : Database} {m m' : Migration}
  {ms done : List Migration} {r : Remedy} {rs : List Remedy}

/-- Whether the ledger has a record of an identifier. -/
def records (db : Database) (id : String) : Bool :=
  (db.ledger.getD {}).applied.contains (octets id)

theorem records_withMigrations {id : String} (hl : ms ≠ [] → db.ledger.isSome) :
    (db.withMigrations now ms).records id = true ↔
      db.records id = true ∨ ∃ m ∈ ms, m.id = id := by
  induction ms generalizing db with
  | nil => simp [withMigrations]
  | cons m ms ih =>
      have hl := hl (List.cons_ne_nil m ms)
      obtain ⟨l, hl'⟩ := Option.isSome_iff_exists.mp hl
      have hone : (db.withMigration now m).records id = true ↔
          m.id = id ∨ db.records id = true := by
        rw [records, withMigration, hl', Option.map_some, Option.getD_some, Table.contains_insert,
          records, hl', Option.getD_some]
        exact or_congr_left ⟨fun h => (octets_injective h).symm, fun h => by rw [← h]; rfl⟩
      have hkept : (db.withMigration now m).ledger.isSome := by rw [isSome_ledger_withMigration, hl]
      rw [withMigrations_cons, ih fun _ => hkept, hone]
      simp [or_assoc, or_left_comm]

@[simp] theorem strangers_withLedger : db.withLedger.strangers = db.strangers := by
  unfold withLedger
  split <;> rfl

@[simp] theorem indexes_withLedger : db.withLedger.indexes = db.indexes := by
  unfold withLedger
  split <;> rfl

/-! ### Remedies -/

/-- Indexes that a migration has brought stay if a test spares them. -/
theorem filter_indexes_withMigration (db : Database) {p : Index → Bool}
    (h : ∀ i ∈ m.indexes, p i = true) :
    (db.indexes ++ m.indexes).filter p = db.indexes.filter p ++ m.indexes := by
  rw [List.filter_append, List.filter_eq_self.mpr h]

theorem apply_withMigration (h : r.Spares [m]) :
    r.apply (db.withMigration now m) = (r.apply db).withMigration now m := by
  cases r with
  | unblocked => cases m <;> rfl
  | mended =>
      cases hl : db.ledger <;> cases m <;>
        simp [Remedy.apply, withMigration, Migration.addTable, hl]
  | removed name =>
      have hname : sameName name m.table.text = false := h m List.mem_cons_self
      have hindexes : ∀ i ∈ m.indexes, (!sameName name i.table) = true := by
        intro i hi
        obtain ⟨_, -, rfl⟩ := List.mem_map.mp hi
        rw [hname, Bool.not_false]
      cases m <;>
        simp only [Remedy.apply, withMigration, Migration.addTable,
          filter_indexes_withMigration db hindexes]
  | unindexed name =>
      have hindexes : ∀ i ∈ m.indexes, (!sameName name i.name) = true := by
        intro i hi
        obtain ⟨s, hs, rfl⟩ := List.mem_map.mp hi
        rw [h m List.mem_cons_self s hs, Bool.not_false]
      cases m <;>
        simp only [Remedy.apply, withMigration, Migration.addTable,
          filter_indexes_withMigration db hindexes]
  | dropped m' =>
      have hne : m' ≠ m := by simpa [Remedy.Spares] using h
      have hindexes : ∀ i ∈ m.indexes, (!sameName m'.table.text i.table) = true := by
        cases m <;> cases m' <;> first | exact absurd rfl hne | decide
      have hkept := filter_indexes_withMigration db hindexes
      cases m <;> cases m' <;> first
        | exact absurd rfl hne
        | (simp only [Remedy.apply, withMigration, Migration.addTable, Migration.table,
             drop] at hkept ⊢
           rw [hkept])

theorem apply_withMigrations (h : r.Spares ms) :
    r.apply (db.withMigrations now ms) = (r.apply db).withMigrations now ms := by
  induction ms generalizing db with
  | nil => rfl
  | cons m ms ih =>
      have hone : r.Spares [m] := h.mono (by simp)
      have hrest : r.Spares ms := h.mono fun _ => List.mem_cons_of_mem m
      rw [withMigrations_cons, ih hrest, apply_withMigration hone, withMigrations_cons]

theorem isSome_ledger_apply (r : Remedy) (db : Database) :
    (r.apply db).ledger.isSome = db.ledger.isSome := by
  cases r with
  | unblocked | removed | unindexed => rfl
  | mended => rw [Remedy.apply, Option.isSome_map]
  | dropped m => cases m <;> rfl

theorem hasTable_ledger_apply (h : db.hasTable .ledger = false) :
    (r.apply db).hasTable .ledger = false := by
  rw [hasTable, Bool.or_eq_false_iff] at h ⊢
  refine ⟨(isSome_ledger_apply r db).trans h.1, ?_⟩
  have hnone : ∀ s ∈ db.strangers, sameName TableName.ledger.text s = false := by
    simpa [hasStranger] using h.2
  have hsub : ∀ s ∈ (r.apply db).strangers, s ∈ db.strangers := by
    intro s hs
    cases r with
    | unblocked | mended | unindexed => exact hs
    | removed name => exact (List.mem_filter.mp hs).1
    | dropped m => cases m <;> exact (List.mem_filter.mp hs).1
  simpa [hasStranger] using fun s hs => hnone s (hsub s hs)

theorem withLedger_apply (r : Remedy) (db : Database) :
    (r.apply db.withLedger).withLedger = (r.apply db).withLedger := by
  cases htable : db.hasTable .ledger with
  | true => rw [withLedger_eq_self.mpr htable]
  | false =>
      -- the new ledger is as good made before the remedy as after it
      have hmade : db.withLedger = { db with ledger := some {} } := by
        rw [withLedger, htable]
        rfl
      have hafter : (r.apply db).withLedger = { r.apply db with ledger := some {} } := by
        rw [withLedger, hasTable_ledger_apply htable]
        rfl
      have hthere : (r.apply { db with ledger := some {} }).hasTable .ledger = true := by
        rw [hasTable, has, isSome_ledger_apply]
        rfl
      rw [hmade, withLedger_eq_self.mpr hthere, hafter]
      cases r with
      | unblocked | removed | unindexed | mended => rfl
      | dropped m => cases m <;> rfl

theorem records_apply (r : Remedy) (db : Database) (id : String) :
    (r.apply db).records id = db.records id := by
  cases r with
  | unblocked | removed | unindexed => rfl
  | mended =>
      rw [records, records, Remedy.apply]
      cases db.ledger <;> rfl
  | dropped m => cases m <;> rfl

/-! ### Going on where a run has stopped -/

/-- One file is another, as it would be brought up to date, with some migrations
applied already. -/
structure Continues (now : Instant) (done : List Migration) (db left : Database) : Prop where
  store : left.withLedger = db.withLedger.withMigrations now done
  ledger : db.ledger.isSome → left.ledger.isSome
  listing : done ≠ [] → db.withLedger.ledger.isSome
  once : done.Nodup

theorem Continues.strangers (h : Continues now done db left) : left.strangers = db.strangers := by
  have hboth := congrArg Database.strangers h.store
  rwa [strangers_withLedger, strangers_withMigrations, strangers_withLedger] at hboth

theorem Continues.indexes (h : Continues now done db left) :
    left.indexes = db.indexes ++ done.flatMap Migration.indexes := by
  have hboth := congrArg Database.indexes h.store
  rwa [indexes_withLedger, indexes_withMigrations, indexes_withLedger] at hboth

theorem withLedger_of_isSome (h : db.ledger.isSome) : db.withLedger = db := by
  rw [withLedger_eq_self, hasTable, has, h]
  rfl

theorem Continues.apply (h : Continues now done db left) (hr : r.Spares done) :
    Continues now done (r.apply db) (r.apply left) where
  store := by
    rw [← withLedger_apply, h.store, apply_withMigrations hr, ← withLedger_apply r db]
    by_cases hdone : done = []
    · rw [hdone]
      rfl
    · have hbefore : (r.apply db.withLedger).ledger.isSome := by
        rw [isSome_ledger_apply, h.listing hdone]
      have hafter : ((r.apply db.withLedger).withMigrations now done).ledger.isSome := by
        rw [isSome_ledger_withMigrations, hbefore]
      rw [withLedger_of_isSome hbefore, withLedger_of_isSome hafter]
  ledger hdb := by
    rw [isSome_ledger_apply] at hdb ⊢
    exact h.ledger hdb
  once := h.once
  listing hdone := by
    have hbefore : (r.apply db.withLedger).ledger.isSome := by
      rw [isSome_ledger_apply, h.listing hdone]
    rw [← withLedger_apply, withLedger_of_isSome hbefore, hbefore]

theorem Continues.applyAll (h : Continues now done db left) (hrs : ∀ r ∈ rs, r.Spares done) :
    Continues now done (Remedy.applyAll rs db) (Remedy.applyAll rs left) := by
  induction rs generalizing db left with
  | nil => exact h
  | cons r rs ih =>
      exact ih (h.apply (hrs r List.mem_cons_self)) fun r' hr' =>
        hrs r' (List.mem_cons_of_mem r hr')

/-- What a run has done is in nobody's way. -/
theorem Passes.withMigration (h : Passes a db m) (now : Instant) (m' : Migration) :
    Passes a (db.withMigration now m') m := by
  by_cases hm : m = m'
  · subst hm
    obtain ⟨l, hl, hform⟩ := h.listing
    refine ⟨h.begins, ⟨_, ledger_withMigration hl, hform⟩, fun hnew => ?_⟩
    rw [isRecorded_withMigration (by rw [hl]; rfl)] at hnew
    simp at hnew
  · exact (passes_withMigration hm).mpr h

theorem Passes.withMigrations (h : Passes a db m) (now : Instant) (ms : List Migration) :
    Passes a (db.withMigrations now ms) m := by
  induction ms generalizing db with
  | nil => exact h
  | cons m' ms ih => exact ih (h.withMigration now m')

/-- If nothing stands in the way of a file, nothing does in the way of one that
continues it. -/
theorem Continues.clear (h : Continues now done db left) (hclear : Clear a db) :
    Clear a left where
  reads := hclear.reads
  ledger := by
    refine hclear.ledger.imp (fun hdb => ?_) fun ⟨hfree, hallowed⟩ => ⟨?_, hallowed⟩
    · rw [hasTable, Bool.or_eq_true] at hdb ⊢
      refine hdb.imp h.ledger fun hstranger => ?_
      rwa [hasStranger, h.strangers]
    · have hnames : ∀ m : Migration, ∀ i ∈ m.indexes,
          ¬sameName TableName.ledger.text i.name = true := by
        intro m
        cases m <;> decide
      rw [hasIndex, h.indexes, List.any_append, ← hasIndex, hfree, Bool.false_or,
        List.any_eq_false]
      intro i hi
      obtain ⟨m, -, hi⟩ := List.mem_flatMap.mp hi
      exact hnames m i hi
  passes m hm := by
    rw [h.store]
    exact (hclear.passes m hm).withMigrations now done

theorem Clear.migrate_eq (h : Clear a db) (now : Instant) :
    (db.migrate a now).answer = .ok db.pending ∧
      (db.migrate a now).store = db.withLedger.withMigrations now db.pending := by
  obtain ⟨ids, hids⟩ := isOk_migrate.mpr h
  obtain ⟨e, he⟩ | hprogress := migrate_progress a now db
  · rw [he] at hids
    cases hids
  · have hpending : db.withLedger.unrecorded Migration.all = db.pending :=
      unrecorded_withLedger db Migration.all
    generalize db.migrate a now = o at hids hprogress
    cases hprogress with
    | completed events fit told => exact ⟨congrArg _ hpending, by rw [← hpending]⟩
    | stopped => cases hids

/-- A clear way leads from a ledger. -/
theorem Clear.isSome_ledger (h : Clear a db) : db.withLedger.ledger.isSome := by
  obtain ⟨l, hl, -⟩ := (h.passes .addEntities (Migration.mem_all _)).listing
  rw [hl]
  rfl

theorem isRecorded_eq_records (db : Database) (m : Migration) :
    db.isRecorded m = db.records m.id := rfl

theorem records_withLedger (db : Database) (id : String) :
    db.withLedger.records id = db.records id := by
  rw [records, applied_withLedger, records]

theorem Continues.records_iff (h : Continues now done db left) (id : String) :
    left.records id = true ↔ db.records id = true ∨ ∃ m ∈ done, m.id = id := by
  rw [← records_withLedger, h.store, records_withMigrations h.listing, records_withLedger]

theorem id_injective {m m' : Migration} (h : m.id = m'.id) : m = m' :=
  migration_id_injective (congrArg octets h)

theorem mem_pending : m ∈ db.pending ↔ db.isRecorded m = false := by
  simp [pending, Migration.mem_all]

/-- The two files have the same objects and the same records in the end. -/
structure SameSchema (db db' : Database) : Prop where
  objects : db'.objects = db.objects
  records : ∀ id, db'.records id = db.records id

/-- What is pending is what has been done since and what is left. -/
theorem Continues.pending_perm (h : Continues now done db left)
    (hdone : ∀ m ∈ done, m ∈ db.pending) : (done ++ left.pending).Perm db.pending := by
  have hleft (m : Migration) : m ∈ left.pending ↔ m ∈ db.pending ∧ m ∉ done := by
    rw [mem_pending, mem_pending, ← Bool.not_eq_true, ← Bool.not_eq_true, isRecorded_eq_records,
      h.records_iff, isRecorded_eq_records, not_or]
    refine and_congr_right fun _ => not_congr ⟨?_, fun hm => ⟨m, hm, rfl⟩⟩
    rintro ⟨m', hm', hid⟩
    rwa [← id_injective hid]
  have hnodup : (done ++ left.pending).Nodup := by
    refine List.nodup_append.mpr ⟨h.once, Migration.nodup_all.filter _, ?_⟩
    rintro m hm m' hm' rfl
    exact ((hleft m).mp hm').2 hm
  refine (List.perm_ext_iff_of_nodup hnodup (Migration.nodup_all.filter _)).mpr fun m => ?_
  rw [List.mem_append, hleft]
  constructor
  · rintro (hm | hm)
    · exact hdone m hm
    · exact hm.1
  · intro hm
    by_cases hin : m ∈ done
    · exact .inl hin
    · exact .inr ⟨hm, hin⟩

/-- Going on where a run has stopped comes to the same as one run. -/
theorem Continues.migrate (h : Continues now done db left) (hclear : Clear a db)
    (hdone : ∀ m ∈ done, m ∈ db.pending) (now' : Instant) :
    (left.migrate a now').answer = .ok left.pending ∧
      (db.migrate a now').store.SameSchema (left.migrate a now').store := by
  obtain ⟨-, hone⟩ := hclear.migrate_eq now'
  obtain ⟨hanswer, hrest⟩ := (h.clear hclear).migrate_eq now'
  have hpending := h.pending_perm hdone
  have hsplit (m : Migration) : m ∈ db.pending ↔ m ∈ done ∨ m ∈ left.pending := by
    rw [← hpending.mem_iff, List.mem_append]
  have hledger := hclear.isSome_ledger
  have hafter : (db.withLedger.withMigrations now done).ledger.isSome := by
    rw [isSome_ledger_withMigrations, hledger]
  refine ⟨hanswer, objects_congr (fun n => ?_) ?_ ?_, fun id => ?_⟩
  · rw [hone, hrest, h.store, has_withMigrations, has_withMigrations, has_withMigrations,
      Bool.eq_iff_iff]
    simp only [Bool.or_eq_true, List.any_eq_true, hsplit, or_and_right, exists_or, or_assoc]
  · rw [hone, hrest, h.store, strangers_withMigrations, strangers_withMigrations,
      strangers_withMigrations]
  · rw [hone, hrest, h.store, indexes_withMigrations, indexes_withMigrations,
      indexes_withMigrations, List.append_assoc, ← List.flatMap_append]
    exact (hpending.flatMap_right _).append_left _
  · rw [hone, hrest, h.store, Bool.eq_iff_iff, records_withMigrations fun _ => hafter,
      records_withMigrations fun _ => hledger, records_withMigrations fun _ => hledger]
    simp only [hsplit, or_and_right, exists_or, or_assoc]

/-! ### Bringing a file up to date -/

theorem hasTable_withLedger (db : Database) : db.withLedger.hasTable .ledger = true := by
  cases htable : db.hasTable .ledger with
  | true => rwa [withLedger_eq_self.mpr htable]
  | false =>
      rw [withLedger, htable]
      rfl

theorem Fit.continues (h : db.withLedger.Fit done) (hdone : done.Nodup) (now : Instant) :
    Continues now done db (db.withLedger.withMigrations now done) where
  store := by
    by_cases hdone : done = []
    · rw [hdone]
      exact withLedger_eq_self.mpr (hasTable_withLedger db)
    · refine withLedger_of_isSome ?_
      rw [isSome_ledger_withMigrations, h.1 hdone]
  ledger hdb := by
    rw [isSome_ledger_withMigrations, withLedger_of_isSome hdb, hdb]
  listing := h.1
  once := hdone

/-- A run that completes has applied what was pending. -/
theorem Progress.completed_pending {o : Outcome Database (List Migration)}
    (h : Progress now db.withLedger Migration.all o) (ho : o.answer = .ok ms) :
    ms = db.pending ∧ db.Applied now ms o.store ∧ started o.events = ms.map Migration.id := by
  have hpending : db.withLedger.unrecorded Migration.all = db.pending :=
    unrecorded_withLedger db Migration.all
  cases h with
  | stopped => cases ho
  | completed events fit told =>
      obtain rfl := Except.ok.inj ho
      have hnodup := Migration.nodup_all.filter (!db.withLedger.isRecorded ·)
      refine ⟨hpending, applied_withMigrations now fit hnodup fun m hm => ?_, told⟩
      exact mem_pending.mp (hpending ▸ hm)

/-- A run that stops has applied what was pending before the migration at which it
stopped. -/
theorem Progress.stopped_at {o : Outcome Database (List Migration)} {e : RegistryError}
    (h : Progress now db.withLedger Migration.all o) (ho : o.answer = .error e) :
    ∃ before m after tried, Migration.all = before ++ m :: after ∧
      db.Applied now (db.unrecorded before) o.store ∧
      (tried = [] ∨ db.isRecorded m = false ∧ tried = [m]) ∧
      started o.events = (db.unrecorded before ++ tried).map Migration.id := by
  cases h with
  | completed => cases ho
  | stopped e events before after m order fit told =>
      obtain ⟨tried, htried, told⟩ := told
      have hbefore : before.Nodup := (List.nodup_append.mp (order ▸ Migration.nodup_all)).1
      rw [unrecorded_withLedger] at fit told ⊢
      rw [isRecorded_withLedger] at htried
      refine ⟨before, m, after, tried, order, ?_, htried, told⟩
      refine applied_withMigrations now fit (hbefore.filter _) fun m hm => ?_
      simpa using (List.mem_filter.mp hm).2

/-- What a run that fails leaves can be gone on with. -/
theorem Progress.continues {o : Outcome Database (List Migration)} {e : RegistryError}
    (h : Progress now db.withLedger Migration.all o) (ho : o.answer = .error e) :
    ∃ done, Continues now done db o.store ∧ ∀ m ∈ done, m ∈ db.pending := by
  cases h with
  | completed => cases ho
  | stopped e events before after m order fit told =>
      have hbefore : before.Nodup := (List.nodup_append.mp (order ▸ Migration.nodup_all)).1
      refine ⟨_, fit.continues (hbefore.filter _) now, fun m' hm' => mem_pending.mpr ?_⟩
      have hnew := (List.mem_filter.mp hm').2
      rw [isRecorded_withLedger] at hnew
      simpa using hnew

/-- So can what is left where the ledger could not be made. -/
theorem continues_migrate {e : RegistryError} (he : (db.migrate a now).answer = .error e) :
    ∃ done, Continues now done db (db.migrate a now).store ∧ ∀ m ∈ done, m ∈ db.pending := by
  obtain ⟨e, heq⟩ | hprogress := migrate_progress a now db
  · rw [heq]
    refine ⟨[], ⟨rfl, id, fun h => absurd rfl h, List.nodup_nil⟩, fun m hm => ?_⟩
    cases hm
  · exact hprogress.continues he

theorem records_applyAll (rs : List Remedy) (db : Database) (id : String) :
    (Remedy.applyAll rs db).records id = db.records id := by
  induction rs generalizing db with
  | nil => rfl
  | cons r rs ih => exact (ih (r.apply db)).trans (records_apply r db id)

theorem pending_applyAll (rs : List Remedy) (db : Database) :
    (Remedy.applyAll rs db).pending = db.pending := by
  refine List.filter_congr fun m _ => ?_
  rw [isRecorded_eq_records, isRecorded_eq_records, records_applyAll]

/-- What comes of a run of the migrations. -/
structure Migrates (a : Access) (now : Instant) (db : Database) : Prop where
  /-- A run that completes has applied what the ledger did not list, in order. -/
  completed : ∀ ms, (db.migrate a now).answer = .ok ms →
    ms = db.pending ∧ db.Applied now ms (db.migrate a now).store ∧
      started (db.migrate a now).events = ms.map Migration.id
  /-- It completes if and only if nothing stands in the way. -/
  completes_iff : (∃ ms, (db.migrate a now).answer = .ok ms) ↔ Clear a db
  /-- A run that fails finds no ledger and can make none, or it has applied the
  pending migrations before the one at which it stopped, and has tried that one
  only if the ledger did not list it. -/
  stopped : ∀ e, (db.migrate a now).answer = .error e →
    (db.migrate a now).store = db ∧ (db.migrate a now).events = [] ∨
      ∃ before m after tried, Migration.all = before ++ m :: after ∧
        db.Applied now (db.unrecorded before) (db.migrate a now).store ∧
        (tried = [] ∨ db.isRecorded m = false ∧ tried = [m]) ∧
        started (db.migrate a now).events = (db.unrecorded before ++ tried).map Migration.id
  /-- After a run that completed, a run has nothing to do. -/
  again : ∀ ms, (db.migrate a now).answer = .ok ms →
    ∀ a' now', a'.reads = true → a'.begins = true →
      ((db.migrate a now).store.migrate a' now').answer = .ok [] ∧
        ((db.migrate a now).store.migrate a' now').store = (db.migrate a now).store
  /-- After a run that failed, when remedies have cleared the way, a run applies
  what is still pending, and the file is as if the way had been clear before. -/
  resumed : ∀ e, (db.migrate a now).answer = .error e →
    ∀ rs : List Remedy,
      (∀ r ∈ rs, r.Spares (db.pending.filter (db.migrate a now).store.isRecorded)) →
      ∀ a' now', Clear a' (Remedy.applyAll rs db) →
        ((Remedy.applyAll rs (db.migrate a now).store).migrate a' now').answer =
            .ok (db.migrate a now).store.pending ∧
          ((Remedy.applyAll rs db).migrate a' now').store.SameSchema
            ((Remedy.applyAll rs (db.migrate a now).store).migrate a' now').store

/-- A ledger that can be read lists every migration. -/
structure Listed (db : Database) : Prop where
  listing : ∃ l, db.ledger = some l ∧ l.form ≠ .untimed
  recorded : ∀ m, db.isRecorded m = true

/-- A run that completes leaves every migration listed. -/
theorem listed_migrate (h : (db.migrate a now).answer = .ok ms) :
    (db.migrate a now).store.Listed := by
  have hclear := isOk_migrate.mp ⟨ms, h⟩
  have hpass := (hclear.passes .addEntities (Migration.mem_all _)).withMigrations now db.pending
  rw [(hclear.migrate_eq now).2]
  refine ⟨hpass.listing, fun m => ?_⟩
  rw [isRecorded_eq_records, records_withMigrations fun _ => hclear.isSome_ledger,
    records_withLedger]
  by_cases hm : m ∈ db.pending
  · exact .inr ⟨m, hm, rfl⟩
  · exact .inl (by rwa [mem_pending, Bool.not_eq_false] at hm)

/-- Where every migration is listed a run has nothing to do. -/
theorem Listed.migrate_eq (h : db.Listed) (hreads : a.reads = true) (hbegins : a.begins = true)
    (now : Instant) : (db.migrate a now).answer = .ok [] ∧ (db.migrate a now).store = db := by
  have hself : db.withLedger = db := by
    obtain ⟨l, hl, -⟩ := h.listing
    exact withLedger_of_isSome (by rw [hl]; rfl)
  have hclear : Clear a db := by
    refine ⟨hreads, .inl (withLedger_eq_self.mp hself), fun m _ => ?_⟩
    rw [hself]
    refine ⟨hbegins, h.listing, fun hnew => ?_⟩
    rw [h.recorded] at hnew
    cases hnew
  have hnone : db.pending = [] := List.filter_eq_nil_iff.mpr fun m _ => by simp [h.recorded]
  obtain ⟨hanswer, hstore⟩ := hclear.migrate_eq now
  rw [hnone] at hanswer hstore
  exact ⟨hanswer, hstore.trans hself⟩

/-- Migrations are applied in order, each wholly or not at all and once, and a
run that failed can be resumed. -/
theorem migrates (a : Access) (now : Instant) (db : Database) : Migrates a now db where
  completed ms hms := by
    obtain ⟨e, he⟩ | hprogress := migrate_progress a now db
    · rw [he] at hms
      cases hms
    · exact hprogress.completed_pending hms
  completes_iff := isOk_migrate
  stopped e he := by
    obtain ⟨e, heq⟩ | hprogress := migrate_progress a now db
    · rw [heq]
      exact .inl ⟨rfl, rfl⟩
    · exact .inr (hprogress.stopped_at he)
  again ms hms a' now' hreads hbegins := (listed_migrate hms).migrate_eq hreads hbegins now'
  resumed e he rs hrs a' now' hclear := by
    obtain ⟨done, hleft, hdone⟩ := continues_migrate he
    have hspares : ∀ r ∈ rs, r.Spares done := by
      intro r hr
      refine (hrs r hr).mono fun m hm => List.mem_filter.mpr ⟨hdone m hm, ?_⟩
      rw [isRecorded_eq_records, hleft.records_iff]
      exact .inr ⟨m, hm, rfl⟩
    have hpending : ∀ m ∈ done, m ∈ (Remedy.applyAll rs db).pending := by
      rwa [pending_applyAll]
    have hnext := (hleft.applyAll hspares).migrate hclear hpending now'
    rwa [pending_applyAll] at hnext

/-- A file in which an unrelated table has the name of an index. -/
def misnamed : Database := { strangers := ["idx_test_sessions_target"] }

example : (misnamed.migrate .free .epoch).answer =
    .error (.storage (.nameOfTable "idx_test_sessions_target")) ∧
    ((Remedy.applyAll [.removed "idx_test_sessions_target"]
      (misnamed.migrate .free .epoch).store).migrate .free .epoch).answer = .ok [.addSessions] := by
  decide +kernel

/-- A file in which an unrelated table has an index of the name of one that a migration
makes. -/
def misindexed : Database where
  strangers := ["logs"]
  indexes := [⟨"idx_test_sessions_target", "logs"⟩]

example : (misindexed.migrate .free .epoch).answer =
    .error (.storage (.indexExists "idx_test_sessions_target")) ∧
    ((Remedy.applyAll [.unindexed "idx_test_sessions_target"]
      (misindexed.migrate .free .epoch).store).migrate .free .epoch).answer =
        .ok [.addSessions] := by
  decide +kernel

end Database

end OwnershipRegistry
