import OwnershipRegistry.Proofs.File.Regular

/-!
What migrations make of the file. A migration that is applied adds its empty
table and its record and nothing else; one that is listed, or that fails, adds
nothing. Migrations bring different tables, so whether one finds its names free
does not depend on those applied before it, and a run that stops has applied
exactly the pending ones before the one at which it stopped.
-/

namespace OwnershipRegistry

namespace Migration

/-- The table and the indexes that a migration brings, each with its sort before
its name. -/
def objects (m : Migration) : List String :=
  m.table.indexes.map ("index " ++ ·) ++ ["table " ++ m.table.text]

theorem mem_all (m : Migration) : m ∈ all := by
  cases m <;> decide

theorem nodup_all : all.Nodup := by decide

theorem table_injective {m m' : Migration} (h : m.table = m'.table) : m = m' := by
  cases m <;> cases m' <;> first | rfl | cases h

/-- What a migration makes has other names than the indexes of any other. -/
theorem sameName_eq_false {m m' : Migration} (hm : m' ≠ m) :
    ∀ name ∈ m'.table.text :: m'.table.indexes, ∀ i ∈ m.indexes, sameName name i.name = false := by
  cases m <;> cases m' <;> first | exact absurd rfl hm | decide +kernel

end Migration

namespace Database

/-- The records of the ledger. -/
def ledgerRows (db : Database) : List LedgerRow := (db.ledger.getD {}).applied.rows

/-- Whether the ledger lists a migration. -/
def isRecorded (db : Database) (m : Migration) : Bool :=
  (db.ledger.getD {}).applied.contains (octets m.id)

/-- The migrations that the ledger does not list, in their order. -/
def pending (db : Database) : List Migration := Migration.all.filter (!db.isRecorded ·)

/-- The file with a migration applied and recorded. -/
def withMigration (now : Instant) (db : Database) (m : Migration) : Database :=
  { m.addTable db with
    ledger := db.ledger.map fun l => { l with applied := l.applied.insert ⟨m.id, now.offsetText⟩ } }

def withMigrations (now : Instant) (db : Database) (ms : List Migration) : Database :=
  ms.foldl (withMigration now) db

variable {a : Access} {now : Instant} {db db' : Database} {m m' : Migration}
  {ms : List Migration}

/-! ### A migration that is applied -/

theorem has_withMigration (n : TableName) :
    (db.withMigration now m).has n = (db.has n || n == m.table) := by
  cases m <;> cases n <;> simp [withMigration, Migration.addTable, Migration.table, has]

@[simp] theorem strangers_withMigration : (db.withMigration now m).strangers = db.strangers :=
  strangers_addTable m db

@[simp] theorem indexes_withMigration :
    (db.withMigration now m).indexes = db.indexes ++ m.indexes := indexes_addTable m db

@[simp] theorem blocks_withMigration : (db.withMigration now m).blocks = db.blocks :=
  blocks_addTable m db

@[simp] theorem backing_withMigration (k : Kind) :
    (db.withMigration now m).backing k = db.backing k := by
  cases m <;> cases k <;> rfl

theorem ledger_withMigration {l : Ledger} (hl : db.ledger = some l) :
    (db.withMigration now m).ledger =
      some { l with applied := l.applied.insert ⟨m.id, now.offsetText⟩ } := by
  rw [withMigration, hl]
  rfl

@[simp] theorem isSome_ledger_withMigration :
    (db.withMigration now m).ledger.isSome = db.ledger.isSome := by
  rw [withMigration, Option.isSome_map]

theorem hasTable_withMigration (hm : m' ≠ m) :
    (db.withMigration now m).hasTable m'.table = db.hasTable m'.table := by
  have hne : (m'.table == m.table) = false :=
    beq_eq_false_iff_ne.mpr fun h => hm (Migration.table_injective h)
  rw [hasTable, has_withMigration, hne, Bool.or_false, hasStranger, strangers_withMigration]
  rfl

theorem hasIndex_withMigration {name : String}
    (h : ∀ i ∈ m.indexes, sameName name i.name = false) :
    (db.withMigration now m).hasIndex name = db.hasIndex name := by
  have hother : (m.indexes.any fun i => sameName name i.name) = false :=
    List.any_eq_false.mpr fun i hi => Bool.eq_false_iff.mp (h i hi)
  rw [hasIndex, indexes_withMigration, List.any_append, hother, Bool.or_false, hasIndex]

/-- Whether a migration finds its names free does not depend on another. -/
theorem fits_withMigration (hm : m' ≠ m) :
    m'.Fits (db.withMigration now m) ↔ m'.Fits db := by
  have hstranger (name : String) :
      (db.withMigration now m).hasStranger name = db.hasStranger name := by
    rw [hasStranger, strangers_withMigration, hasStranger]
  have hindex (name : String) (hname : name ∈ m'.table.text :: m'.table.indexes) :
      (db.withMigration now m).hasIndex name = db.hasIndex name :=
    hasIndex_withMigration (Migration.sameName_eq_false hm name hname)
  have hnames (name : String) (hname : name ∈ m'.table.indexes) :=
    hindex name (List.mem_cons_of_mem _ hname)
  constructor
  · rintro ⟨htable, hfree, hindexes⟩
    refine ⟨hasTable_withMigration hm ▸ htable, hindex _ List.mem_cons_self ▸ hfree,
      fun name hname => ?_⟩
    rw [← hstranger, ← hnames name hname]
    exact hindexes name hname
  · rintro ⟨htable, hfree, hindexes⟩
    refine ⟨(hasTable_withMigration hm).trans htable, (hindex _ List.mem_cons_self).trans hfree,
      fun name hname => ?_⟩
    rw [hstranger, hnames name hname]
    exact hindexes name hname

theorem isRecorded_withMigration (hl : db.ledger.isSome) :
    (db.withMigration now m).isRecorded m' = (db.isRecorded m' || decide (m' = m)) := by
  obtain ⟨l, hl⟩ := Option.isSome_iff_exists.mp hl
  rw [Bool.eq_iff_iff, isRecorded, withMigration, isRecorded, hl, Option.map_some,
    Option.getD_some, Option.getD_some, Table.contains_insert, Bool.or_eq_true, decide_eq_true_iff,
    or_comm]
  exact or_congr_right ⟨fun h => migration_id_injective h, fun h => by rw [h]; rfl⟩

theorem isRecorded_withMigration_of_ne (hm : m' ≠ m) :
    (db.withMigration now m).isRecorded m' = db.isRecorded m' := by
  cases hl : db.ledger with
  | none => simp [isRecorded, withMigration, hl]
  | some l =>
      rw [isRecorded_withMigration (by rw [hl]; rfl), decide_eq_false hm, Bool.or_false]

theorem mem_ledgerRows_withMigration (hl : db.ledger.isSome) (hfree : db.isRecorded m = false)
    {r : LedgerRow} :
    r ∈ (db.withMigration now m).ledgerRows ↔
      r ∈ db.ledgerRows ∨ r = ⟨m.id, now.offsetText⟩ := by
  obtain ⟨l, hl⟩ := Option.isSome_iff_exists.mp hl
  rw [isRecorded, hl, Option.getD_some] at hfree
  rw [ledgerRows, withMigration, hl, Option.map_some, Option.getD_some, Table.mem_rows_insert hfree,
    ledgerRows, hl, Option.getD_some, or_comm]

/-! ### Migrations that are applied -/

theorem withMigrations_cons :
    db.withMigrations now (m :: ms) = (db.withMigration now m).withMigrations now ms := rfl

theorem has_withMigrations (n : TableName) :
    (db.withMigrations now ms).has n = (db.has n || ms.any fun m => n == m.table) := by
  induction ms generalizing db with
  | nil => simp [withMigrations]
  | cons m ms ih => rw [withMigrations_cons, ih, has_withMigration, Bool.or_assoc, List.any_cons]

theorem strangers_withMigrations : (db.withMigrations now ms).strangers = db.strangers := by
  induction ms generalizing db with
  | nil => rfl
  | cons m ms ih => rw [withMigrations_cons, ih, strangers_withMigration]

theorem indexes_withMigrations :
    (db.withMigrations now ms).indexes = db.indexes ++ ms.flatMap Migration.indexes := by
  induction ms generalizing db with
  | nil => rw [List.flatMap_nil, List.append_nil]; rfl
  | cons m ms ih =>
      rw [withMigrations_cons, ih, indexes_withMigration, List.flatMap_cons, List.append_assoc]

theorem backing_withMigrations (k : Kind) :
    (db.withMigrations now ms).backing k = db.backing k := by
  induction ms generalizing db with
  | nil => rfl
  | cons m ms ih => rw [withMigrations_cons, ih, backing_withMigration]

theorem isSome_ledger_withMigrations :
    (db.withMigrations now ms).ledger.isSome = db.ledger.isSome := by
  induction ms generalizing db with
  | nil => rfl
  | cons m ms ih => rw [withMigrations_cons, ih, isSome_ledger_withMigration]

/-! ### One migration -/

theorem isRecorded_of_appliedAt?_eq_ok {time : Option String} (h : db.appliedAt? m = .ok time) :
    db.isRecorded m = time.isSome := by
  rw [appliedAt?, understood_eq_ok] at h
  obtain ⟨-, h⟩ := h
  simp only at h
  split at h
  · cases h
  · rw [← Except.ok.inj h, Option.isSome_map, isRecorded]
    cases hfind : ((db.ledger.getD {}).applied.find? (octets m.id)) with
    | none => exact Table.find?_eq_none_iff.mp hfind
    | some r => exact Table.contains_iff.mpr ⟨r, Table.find?_eq_some_iff.mp hfind⟩

/-- The migrations that events tell of as being applied. -/
def started (events : List Event) : List String :=
  events.filterMap fun
    | .applyingMigration id _ => some id
    | _ => none

/-- What can come of one migration. -/
inductive Attempt (now : Instant) (db : Database) (m : Migration) : Outcome Database Bool → Prop
  | failed (e : RegistryError) (events : List Event)
      (tried : started events = [] ∨ db.isRecorded m = false ∧ started events = [m.id]) :
      Attempt now db m ⟨db, .error e, events⟩
  | listed (time : String) (recorded : db.isRecorded m = true) :
      Attempt now db m ⟨db, .ok false, [.migrationPresent m.id time]⟩
  | applied (unrecorded : db.isRecorded m = false) (ledger : db.ledger.isSome) (fits : m.Fits db) :
      Attempt now db m
        ⟨db.withMigration now m, .ok true, [.applyingMigration m.id m.description]⟩

theorem applyMigration_attempt (a : Access) (now : Instant) (db : Database) (m : Migration) :
    Attempt now db m (db.applyMigration a now m) := by
  unfold applyMigration
  split
  · exact .failed _ _ (.inl rfl)
  · split
    · exact .failed _ _ (.inl rfl)
    · rename_i time htime
      exact .listed time (isRecorded_of_appliedAt?_eq_ok htime)
    · rename_i htime
      have hfree : db.isRecorded m = false := isRecorded_of_appliedAt?_eq_ok htime
      simp only
      split
      · exact .failed _ _ (.inr ⟨hfree, rfl⟩)
      · rename_i db' hdone
        split
        · obtain ⟨mid, hmid, hrec⟩ := Except.bind_eq_ok.mp hdone
          obtain ⟨-, hfits, rfl⟩ := up_eq_ok.mp hmid
          obtain ⟨l, hl, rfl⟩ := record_eq_ok hrec
          have hledger : db.ledger = some l := by rwa [ledger_addTable] at hl
          have hstore : { m.addTable db with
              ledger := some { l with applied := l.applied.insert ⟨m.id, now.offsetText⟩ } } =
              db.withMigration now m := by
            rw [withMigration, hledger]
            rfl
          rw [hstore]
          exact .applied hfree (by rw [hledger]; rfl) hfits
        · exact .failed _ _ (.inr ⟨hfree, rfl⟩)

/-! ### Migrations in order -/

/-- Those of the migrations that the ledger does not list. -/
def unrecorded (db : Database) (ms : List Migration) : List Migration :=
  ms.filter (!db.isRecorded ·)

/-- The migrations find a ledger, if there are any, and their names free. -/
def Fit (db : Database) (ms : List Migration) : Prop :=
  (ms ≠ [] → db.ledger.isSome) ∧ ∀ m ∈ ms, m.Fits db

/-- What can come of migrations in order: those that are not listed are applied,
all of them or those before the one that fails. -/
inductive Progress (now : Instant) (db : Database) (ms : List Migration) :
    Outcome Database (List Migration) → Prop
  | completed (events : List Event) (fit : db.Fit (db.unrecorded ms))
      (told : started events = (db.unrecorded ms).map Migration.id) :
      Progress now db ms
        ⟨db.withMigrations now (db.unrecorded ms), .ok (db.unrecorded ms), events⟩
  | stopped (e : RegistryError) (events : List Event) (before after : List Migration)
      (m : Migration) (order : ms = before ++ m :: after) (fit : db.Fit (db.unrecorded before))
      (told : ∃ tried, (tried = [] ∨ db.isRecorded m = false ∧ tried = [m]) ∧
        started events = (db.unrecorded before ++ tried).map Migration.id) :
      Progress now db ms ⟨db.withMigrations now (db.unrecorded before), .error e, events⟩

theorem unrecorded_withMigration (hm : m ∉ ms) :
    (db.withMigration now m).unrecorded ms = db.unrecorded ms := by
  refine List.filter_congr fun m' hm' => ?_
  have hne : m' ≠ m := fun h => hm (h ▸ hm')
  rw [isRecorded_withMigration_of_ne hne]

theorem unrecorded_cons_of_recorded (h : db.isRecorded m = true) :
    db.unrecorded (m :: ms) = db.unrecorded ms := by
  rw [unrecorded, List.filter_cons, h]
  rfl

theorem unrecorded_cons_of_unrecorded (h : db.isRecorded m = false) :
    db.unrecorded (m :: ms) = m :: db.unrecorded ms := by
  rw [unrecorded, List.filter_cons, h]
  rfl

theorem started_append (es es' : List Event) : started (es ++ es') = started es ++ started es' :=
  List.filterMap_append

/-- A migration that is listed leaves the rest to be done. -/
theorem Progress.cons_listed {o : Outcome Database (List Migration)} {events : List Event}
    (h : Progress now db ms o) (hm : db.isRecorded m = true) (hevents : started events = []) :
    Progress now db (m :: ms) (o.after events) := by
  cases h with
  | completed es fit told =>
      rw [← unrecorded_cons_of_recorded hm] at fit told ⊢
      refine .completed _ fit ?_
      rw [started_append, hevents, told, List.nil_append]
  | stopped e es before after m' order fit told =>
      obtain ⟨tried, htried, told⟩ := told
      rw [← unrecorded_cons_of_recorded hm] at fit told ⊢
      refine .stopped e _ (m :: before) after m' (congrArg (m :: ·) order) fit ⟨tried, htried, ?_⟩
      rw [started_append, hevents, told, List.nil_append]

theorem Fit.cons (hl : db.ledger.isSome) (hfits : m.Fits db) (hm : m ∉ ms)
    (h : (db.withMigration now m).Fit ms) : db.Fit (m :: ms) := by
  refine ⟨fun _ => hl, fun m' hm' => ?_⟩
  rcases List.mem_cons.mp hm' with rfl | hm'
  · exact hfits
  · have hne : m' ≠ m := fun h => hm (h ▸ hm')
    exact (fits_withMigration hne).mp (h.2 m' hm')

theorem Fit.uncons (h : db.Fit (m :: ms)) (hms : (m :: ms).Nodup) (now : Instant) :
    db.ledger.isSome ∧ m.Fits db ∧ (db.withMigration now m).Fit ms := by
  have hl := h.1 (List.cons_ne_nil m ms)
  refine ⟨hl, h.2 m List.mem_cons_self, fun _ => ?_, fun m' hm' => ?_⟩
  · rw [isSome_ledger_withMigration, hl]
  · have hne : m' ≠ m := fun h => (List.nodup_cons.mp hms).1 (h ▸ hm')
    exact (fits_withMigration hne).mpr (h.2 m' (List.mem_cons_of_mem m hm'))

/-- After a migration has been applied the rest finds what it would have found
before it. -/
theorem Progress.cons_applied {o : Outcome Database (List Migration)} {events : List Event}
    (h : Progress now (db.withMigration now m) ms o) (hm : m ∉ ms)
    (hnew : db.isRecorded m = false) (hl : db.ledger.isSome) (hfits : m.Fits db)
    (hevents : started events = [m.id]) :
    Progress now db (m :: ms) ((o.map (m :: ·)).after events) := by
  cases h with
  | completed es fit told =>
      rw [unrecorded_withMigration hm] at fit told ⊢
      have hall : db.unrecorded (m :: ms) = m :: db.unrecorded ms :=
        unrecorded_cons_of_unrecorded hnew
      have hmem : m ∉ db.unrecorded ms := fun h => hm (List.mem_filter.mp h).1
      have hfit : db.Fit (db.unrecorded (m :: ms)) := hall ▸ fit.cons hl hfits hmem
      have htold : started (events ++ es) = (db.unrecorded (m :: ms)).map Migration.id := by
        rw [started_append, hevents, told, hall]
        rfl
      have hdone : Progress now db (m :: ms)
          ⟨db.withMigrations now (db.unrecorded (m :: ms)), .ok (db.unrecorded (m :: ms)),
            events ++ es⟩ := .completed _ hfit htold
      rw [hall] at hdone
      exact hdone
  | stopped e es before after m' order fit told =>
      obtain ⟨tried, htried, told⟩ := told
      have hbefore : m ∉ before := fun h => hm (order ▸ List.mem_append_left _ h)
      have hne : m' ≠ m := by
        rintro rfl
        exact hm (order ▸ List.mem_append_right _ List.mem_cons_self)
      rw [unrecorded_withMigration hbefore] at fit told ⊢
      rw [isRecorded_withMigration_of_ne hne] at htried
      have hall : db.unrecorded (m :: before) = m :: db.unrecorded before :=
        unrecorded_cons_of_unrecorded hnew
      have hmem : m ∉ db.unrecorded before := fun h => hbefore (List.mem_filter.mp h).1
      have hfit : db.Fit (db.unrecorded (m :: before)) := hall ▸ fit.cons hl hfits hmem
      have htold : started (events ++ es) =
          (db.unrecorded (m :: before) ++ tried).map Migration.id := by
        rw [started_append, hevents, told, hall]
        rfl
      have hstop : Progress now db (m :: ms)
          ⟨db.withMigrations now (db.unrecorded (m :: before)), .error e, events ++ es⟩ :=
        .stopped e _ (m :: before) after m' (congrArg (m :: ·) order) hfit ⟨tried, htried, htold⟩
      rw [hall] at hstop
      exact hstop

theorem applyMigrations_progress (a : Access) (now : Instant) (db : Database)
    (hms : ms.Nodup) : Progress now db ms (db.applyMigrations a now ms) := by
  induction ms generalizing db with
  | nil => exact .completed [] ⟨fun h => absurd rfl h, nofun⟩ rfl
  | cons m ms ih =>
      obtain ⟨hm, hms⟩ := List.nodup_cons.mp hms
      have hfirst := applyMigration_attempt a now db m
      rw [applyMigrations]
      generalize db.applyMigration a now m = first at hfirst
      cases hfirst with
      | failed e events tried =>
          refine .stopped e events [] ms m rfl ⟨fun h => absurd rfl h, nofun⟩ ?_
          rcases tried with htried | ⟨hnew, htried⟩
          · exact ⟨[], .inl rfl, htried⟩
          · exact ⟨[m], .inr ⟨hnew, rfl⟩, htried⟩
      | listed time recorded =>
          have hrest : Progress now db (m :: ms)
              ((db.applyMigrations a now ms).after [.migrationPresent m.id time]) :=
            (ih db hms).cons_listed recorded rfl
          have hanswer : (db.applyMigrations a now ms).answer.map (fun ids => ids) =
              (db.applyMigrations a now ms).answer := by
            cases (db.applyMigrations a now ms).answer <;> rfl
          simp only [Bool.false_eq_true, if_false, hanswer]
          exact hrest
      | applied unrecorded ledger fits =>
          exact (ih _ hms).cons_applied hm unrecorded ledger fits rfl

/-- What comes of bringing a file up to date: there is no ledger to begin with,
or the migrations go as far as they can. -/
theorem migrate_progress (a : Access) (now : Instant) (db : Database) :
    (∃ e, db.migrate a now = ⟨db, .error e, []⟩) ∨
      Progress now db.withLedger Migration.all (db.migrate a now) := by
  unfold migrate
  split
  · rename_i e he
    exact .inl ⟨e, rfl⟩
  · rename_i db' hdb'
    rw [provide_ledger_eq_ok hdb']
    exact .inr (applyMigrations_progress a now db.withLedger Migration.nodup_all)

/-- Migrations have nothing to do with backing records. -/
theorem backing_migrate (a : Access) (now : Instant) (db : Database) (k : Kind) :
    (db.migrate a now).store.backing k = db.backing k := by
  have hledger : db.withLedger.backing k = db.backing k := by
    unfold withLedger
    split
    · rfl
    · cases k <;> rfl
  obtain ⟨e, he⟩ | hprogress := migrate_progress a now db
  · rw [he]
  · rw [← hledger]
    generalize db.migrate a now = o at hprogress
    cases hprogress with
    | completed => exact backing_withMigrations k
    | stopped => exact backing_withMigrations k

end Database

end OwnershipRegistry
