import OwnershipRegistry.Proofs.File.Opening

/-!
What a run of migrations has added, and what can stand in its way. The objects
of the file are those it had and those of the migrations that were applied, and
the ledger has one more record for each of them. A run completes if and only if
nothing stands in the way of any migration, and it never matters to one migration
what another has brought.
-/

namespace OwnershipRegistry

namespace TableName

theorem text_injective {n n' : TableName} (h : n.text = n'.text) : n = n' := by
  cases n <;> cases n' <;> first | rfl | exact absurd h (by decide)

end TableName

namespace Database

variable {a : Access} {now : Instant} {db db' : Database} {m m' : Migration}
  {ms : List Migration}

/-! ### Tables and indexes -/

/-- What is sorted by its octets comes out alike from any order. -/
theorem mergeSort_congr {xs ys : List String} (h : xs.Perm ys) :
    (xs.mergeSort fun a b => (compare (octets a) (octets b)).isLE) =
      ys.mergeSort fun a b => (compare (octets a) (octets b)).isLE := by
  have hsorted (zs : List String) :
      (zs.mergeSort fun a b => (compare (octets a) (octets b)).isLE).Pairwise
        fun a b => (compare (octets a) (octets b)).isLE = true := by
    refine List.pairwise_mergeSort (fun a b c hab hbc => ?_) (fun a b => ?_) zs
    · exact Std.TransCmp.isLE_trans hab hbc
    · have hswap : compare (octets b) (octets a) = (compare (octets a) (octets b)).swap :=
        Std.OrientedCmp.eq_swap
      rw [hswap]
      cases compare (octets a) (octets b) <;> rfl
  refine (((List.mergeSort_perm xs _).trans h).trans
    (List.mergeSort_perm ys _).symm).eq_of_pairwise (fun a b _ _ hab hba => ?_)
      (hsorted xs) (hsorted ys)
  exact octets_injective (Std.LawfulEqCmp.eq_of_compare (Std.OrientedCmp.isLE_antisymm hab hba))

theorem objects_congr (hhas : ∀ n, db'.has n = db.has n) (hstrangers : db'.strangers = db.strangers)
    (hindexes : db'.indexes.Perm db.indexes) : db'.objects = db.objects := by
  have hpresent : TableName.all.filter db'.has = TableName.all.filter db.has :=
    List.filter_congr fun n _ => hhas n
  rw [objects, objects, hpresent, hstrangers]
  exact mergeSort_congr ((hindexes.map _).append_right _)

theorem objects_withMigration (now : Instant) (hm : db.has m.table = false) :
    (db.withMigration now m).objects.Perm (db.objects ++ m.objects) := by
  have hpresent : (TableName.all.filter (db.withMigration now m).has).Perm
      (m.table :: TableName.all.filter db.has) := by
    have hnodup : TableName.all.Nodup := by decide
    rw [List.perm_ext_iff_of_nodup (hnodup.filter _)
      (List.nodup_cons.mpr ⟨by simp [hm], hnodup.filter _⟩)]
    intro n
    have hall : n ∈ TableName.all := by cases n <;> decide
    simp only [List.mem_filter, List.mem_cons, hall, true_and, has_withMigration, Bool.or_eq_true,
      beq_iff_eq, or_comm]
  have hindexes : m.indexes.map (fun i => "index " ++ i.name) =
      m.table.indexes.map ("index " ++ ·) :=
    List.map_map ..
  have htables := ((hpresent.map TableName.text).append_right db.strangers).map ("table " ++ ·)
  rw [objects, objects, strangers_withMigration, indexes_withMigration, Migration.objects,
    List.map_append, hindexes]
  refine (List.mergeSort_perm _ _).trans ((htables.append_left _).trans ?_)
  refine List.Perm.trans ?_ ((List.mergeSort_perm _ _).append_right _).symm
  rw [List.perm_iff_count]
  intro x
  simp only [List.map_cons, List.map_append, List.cons_append, List.count_append, List.count_cons,
    List.count_nil]
  omega

theorem objects_withMigrations (now : Instant) (hfit : db.Fit ms) (hms : ms.Nodup) :
    (db.withMigrations now ms).objects.Perm (db.objects ++ ms.flatMap Migration.objects) := by
  induction ms generalizing db with
  | nil =>
      rw [List.flatMap_nil, List.append_nil]
      rfl
  | cons m ms ih =>
      obtain ⟨-, hfits, hrest⟩ := hfit.uncons hms now
      have hfree : db.has m.table = false := (Bool.or_eq_false_iff.mp hfits.table).1
      refine (ih hrest (List.nodup_cons.mp hms).2).trans ?_
      rw [List.flatMap_cons, ← List.append_assoc]
      exact (objects_withMigration now hfree).append_right _

theorem append_inj_of_prefix {p s t : String} (h : p ++ s = p ++ t) : s = t := by
  have hchars := congrArg String.toList h
  rw [String.toList_append, String.toList_append] at hchars
  exact String.ext (List.append_cancel_left hchars)

theorem index_ne_table (s t : String) : "index " ++ s ≠ "table " ++ t := by
  intro h
  have hchars := congrArg String.toList h
  rw [String.toList_append, String.toList_append] at hchars
  exact absurd (List.cons.inj hchars).1 (by decide)

/-- What a migration brings was not there where it found its names free. -/
theorem not_mem_objects (hm : m.Fits db) {x : String} (hx : x ∈ m.objects) : x ∉ db.objects := by
  obtain ⟨hfree, hstranger⟩ := Bool.or_eq_false_iff.mp hm.table
  simp only [objects, List.mem_mergeSort, List.mem_append, List.mem_map, List.mem_filter,
    Migration.objects, List.mem_singleton] at hx ⊢
  rintro (⟨i, hi, rfl⟩ | ⟨s, hs, rfl⟩)
  · rcases hx with ⟨name, hname, heq⟩ | heq
    · obtain rfl := append_inj_of_prefix heq
      exact List.any_eq_false.mp (hm.indexes _ hname).2 i hi (beq_self_eq_true _)
    · exact index_ne_table _ _ heq
  · rcases hx with ⟨name, hname, heq⟩ | heq
    · exact index_ne_table _ _ heq
    · obtain rfl := append_inj_of_prefix heq
      rcases hs with ⟨n, ⟨-, hn⟩, hname⟩ | hs
      · rw [TableName.text_injective hname, hfree] at hn
        cases hn
      · exact List.any_eq_false.mp hstranger _ hs (beq_self_eq_true _)

/-! ### What a run has added -/

theorem applied_withLedger (db : Database) :
    (db.withLedger.ledger.getD {}).applied = (db.ledger.getD {}).applied := by
  unfold withLedger
  split
  · rfl
  · rename_i htable
    rw [none_of_not_hasTable (show db.has .ledger = db.ledger.isSome from rfl) htable]
    rfl

theorem isRecorded_withLedger (db : Database) (m : Migration) :
    db.withLedger.isRecorded m = db.isRecorded m := by
  rw [isRecorded, applied_withLedger, isRecorded]

theorem ledgerRows_withLedger (db : Database) : db.withLedger.ledgerRows = db.ledgerRows := by
  rw [ledgerRows, applied_withLedger, ledgerRows]

theorem unrecorded_withLedger (db : Database) (ms : List Migration) :
    db.withLedger.unrecorded ms = db.unrecorded ms :=
  List.filter_congr fun m _ => by rw [isRecorded_withLedger]

/-- The given migrations and nothing else have been applied to a file: what they
bring is there and was not there before, each has a record, and every row that
was there is there still. -/
structure Applied (now : Instant) (db : Database) (ms : List Migration) (db' : Database) :
    Prop where
  objects : db'.objects.Perm (db.withLedger.objects ++ ms.flatMap Migration.objects)
  brought : ∀ m ∈ ms, ∀ x ∈ m.objects, x ∉ db.withLedger.objects
  records : ∀ r, r ∈ db'.ledgerRows ↔
    r ∈ db.ledgerRows ∨ ∃ m ∈ ms, r = ⟨m.id, now.offsetText⟩
  kept : db.Kept db'

theorem mem_ledgerRows_withMigrations (hfit : db.Fit ms) (hms : ms.Nodup)
    (hnew : ∀ m ∈ ms, db.isRecorded m = false) {r : LedgerRow} :
    r ∈ (db.withMigrations now ms).ledgerRows ↔
      r ∈ db.ledgerRows ∨ ∃ m ∈ ms, r = ⟨m.id, now.offsetText⟩ := by
  induction ms generalizing db with
  | nil => simp [withMigrations]
  | cons m ms ih =>
      obtain ⟨hl, -, hrest⟩ := hfit.uncons hms now
      obtain ⟨hm, hms⟩ := List.nodup_cons.mp hms
      have hnew' : ∀ m' ∈ ms, (db.withMigration now m).isRecorded m' = false := by
        intro m' hm'
        have hne : m' ≠ m := fun h => hm (h ▸ hm')
        rw [isRecorded_withMigration_of_ne hne]
        exact hnew m' (List.mem_cons_of_mem m hm')
      rw [withMigrations_cons, ih hrest hms hnew',
        mem_ledgerRows_withMigration hl (hnew m List.mem_cons_self), or_assoc]
      simp

theorem applied_withMigrations (now : Instant) (hfit : db.withLedger.Fit ms) (hms : ms.Nodup)
    (hnew : ∀ m ∈ ms, db.isRecorded m = false) :
    db.Applied now ms (db.withLedger.withMigrations now ms) where
  objects := objects_withMigrations now hfit hms
  brought m hm _ hx := not_mem_objects (hfit.2 m hm) hx
  records r := by
    have hnew : ∀ m ∈ ms, db.withLedger.isRecorded m = false := fun m hm => by
      rw [isRecorded_withLedger, hnew m hm]
    rw [mem_ledgerRows_withMigrations hfit hms hnew, ledgerRows_withLedger]
  kept := (kept_withLedger db).trans (kept_withMigrations now hfit hms)

/-! ### What can stand in the way -/

/-- Nothing stands in the way of a migration: the ledger can be read, and a
migration that it does not list can be applied and recorded. -/
structure Passes (a : Access) (db : Database) (m : Migration) : Prop where
  begins : a.begins = true
  listing : ∃ l, db.ledger = some l ∧ l.form ≠ .untimed
  changes : db.isRecorded m = false → a.commits = true ∧ a.changes = true ∧
    db.isBlocked .ledger .insertion = false ∧ (∀ l, db.ledger = some l → l.form = .declared) ∧
    m.Fits db

/-- Nothing stands in the way of bringing a file up to date. -/
structure Clear (a : Access) (db : Database) : Prop where
  reads : a.reads = true
  ledger : db.hasTable .ledger = true ∨ db.hasIndex TableName.ledger.text = false ∧
    a.changes = true ∧ a.begins = true ∧ a.commits = true
  passes : ∀ m ∈ Migration.all, Passes a db.withLedger m

theorem refusal_ledger (hl : db.has .ledger = true) :
    db.refusal {} .readLedger = none ∧ db.refusal {} .recordMigration = none := by
  constructor
  · rw [refusal, Outline.obstacle, lacking_eq_none.mpr hl]
    rfl
  · rw [refusal, Outline.obstacle, Outline.lackingToFill, lacking_eq_none.mpr hl]
    rfl

theorem isOk_appliedAt? :
    (∃ time, db.appliedAt? m = .ok time) ↔ ∃ l, db.ledger = some l ∧ l.form ≠ .untimed := by
  constructor
  · rintro ⟨time, h⟩
    rw [appliedAt?, understood_eq_ok] at h
    obtain ⟨hu, h⟩ := h
    have hl : db.has .ledger = true := has_of_refusal_eq_none rfl hu
    obtain ⟨l, hl⟩ := Option.isSome_iff_exists.mp hl
    refine ⟨l, hl, fun hform => ?_⟩
    simp only [hl, Option.getD_some, hform] at h
    cases h
  · rintro ⟨l, hl, hform⟩
    have hhas : db.has .ledger = true := by rw [has, hl]; rfl
    rw [appliedAt?, understood, (refusal_ledger hhas).1, hl]
    cases hl' : l.form with
    | untimed => exact absurd hl' hform
    | declared | annotated column =>
        simp only [Option.getD_some, hl']
        exact ⟨_, rfl⟩

theorem isOk_record {l : Ledger} (hl : db.ledger = some l) (hform : l.form ≠ .untimed) :
    (∃ db', db.record m now = .ok db') ↔
      db.isBlocked .ledger .insertion = false ∧ l.form = .declared := by
  have hhas : db.has .ledger = true := by rw [has, hl]; rfl
  rw [record, understood, (refusal_ledger hhas).2, hl]
  cases db.isBlocked .ledger .insertion with
  | true => simp
  | false =>
      cases hl' : l.form with
      | untimed => exact absurd hl' hform
      | declared | annotated column => simp [hl']

/-- A migration succeeds if and only if nothing stands in its way. -/
theorem isOk_applyMigration :
    (∃ applied, (db.applyMigration a now m).answer = .ok applied) ↔ Passes a db m := by
  constructor
  · rintro ⟨applied, h⟩
    have hbegins : a.begins = true := by
      by_contra hno
      rw [applyMigration, Bool.eq_false_iff.mpr hno] at h
      cases h
    obtain ⟨-, -, time, htime⟩ | ⟨-, htime, mid, hup, hrec⟩ := applyMigration_eq_ok h
    · refine ⟨hbegins, isOk_appliedAt?.mp ⟨_, htime⟩, fun hnew => ?_⟩
      rw [isRecorded_of_appliedAt?_eq_ok htime] at hnew
      cases hnew
    · obtain ⟨l, hl, hform⟩ := isOk_appliedAt?.mp ⟨_, htime⟩
      obtain ⟨hchanges, hfits, rfl⟩ := up_eq_ok.mp hup
      have hl' : (m.addTable db).ledger = some l := by rw [ledger_addTable, hl]
      obtain ⟨hfree, hdeclared⟩ := (isOk_record hl' hform).mp ⟨_, hrec⟩
      refine ⟨hbegins, ⟨l, hl, hform⟩, fun _ => ⟨?_, hchanges, ?_, ?_, hfits⟩⟩
      · by_contra hno
        rw [applyMigration, hbegins, htime] at h
        simp only [hup, Except.bind, hrec, Bool.eq_false_iff.mpr hno] at h
        cases h
      · rwa [isBlocked, blocks_addTable] at hfree
      · intro l₀ hl₀
        rw [← Option.some.inj (hl.symm.trans hl₀), hdeclared]
  · rintro ⟨hbegins, ⟨l, hl, hform⟩, hchanges⟩
    obtain ⟨time, htime⟩ := isOk_appliedAt? (m := m).mpr ⟨l, hl, hform⟩
    have hrecorded := isRecorded_of_appliedAt?_eq_ok htime
    rw [applyMigration, hbegins, htime]
    cases time with
    | some time => exact ⟨false, rfl⟩
    | none =>
        obtain ⟨hcommits, hchange, hfree, hdeclared, hfits⟩ := hchanges hrecorded
        have hup : m.up a db = .ok (m.addTable db) := up_eq_ok.mpr ⟨hchange, hfits, rfl⟩
        have hl' : (m.addTable db).ledger = some l := by rw [ledger_addTable, hl]
        have hfree' : (m.addTable db).isBlocked .ledger .insertion = false := by
          rwa [isBlocked, blocks_addTable]
        obtain ⟨db', hrec⟩ : ∃ db', (m.addTable db).record m now = .ok db' :=
          (isOk_record hl' hform).mpr ⟨hfree', hdeclared l hl⟩
        simp only [hup, Except.bind, hrec, hcommits]
        exact ⟨true, rfl⟩

/-- What one migration brings is in nobody else's way. -/
theorem passes_withMigration (hm : m' ≠ m) :
    Passes a (db.withMigration now m) m' ↔ Passes a db m' := by
  have hlisting : (∃ l, (db.withMigration now m).ledger = some l ∧ l.form ≠ .untimed) ↔
      ∃ l, db.ledger = some l ∧ l.form ≠ .untimed := by
    rw [withMigration]
    cases db.ledger <;> simp
  have hforms : (∀ l, (db.withMigration now m).ledger = some l → l.form = .declared) ↔
      ∀ l, db.ledger = some l → l.form = .declared := by
    rw [withMigration]
    cases db.ledger <;> simp
  have hblocks : (db.withMigration now m).isBlocked .ledger .insertion =
      db.isBlocked .ledger .insertion := by
    rw [isBlocked, blocks_withMigration, isBlocked]
  constructor
  · rintro ⟨hbegins, hl, hchanges⟩
    rw [isRecorded_withMigration_of_ne hm, hblocks, hforms, fits_withMigration hm] at hchanges
    exact ⟨hbegins, hlisting.mp hl, hchanges⟩
  · rintro ⟨hbegins, hl, hchanges⟩
    refine ⟨hbegins, hlisting.mpr hl, ?_⟩
    rw [isRecorded_withMigration_of_ne hm, hblocks, hforms, fits_withMigration hm]
    exact hchanges

theorem isOk_applyMigrations (hms : ms.Nodup) :
    (∃ ids, (db.applyMigrations a now ms).answer = .ok ids) ↔ ∀ m ∈ ms, Passes a db m := by
  induction ms generalizing db with
  | nil => exact ⟨fun _ => nofun, fun _ => ⟨[], rfl⟩⟩
  | cons m ms ih =>
      obtain ⟨hm, hms⟩ := List.nodup_cons.mp hms
      have hpass : (∃ applied, (db.applyMigration a now m).answer = .ok applied) ↔ Passes a db m :=
        isOk_applyMigration
      have hstep := applyMigration_attempt a now db m
      rw [List.forall_mem_cons, ← hpass, applyMigrations]
      generalize db.applyMigration a now m = first at hstep
      cases hstep with
      | failed e events tried => simp
      | listed time recorded =>
          simp only [Except.map_eq_ok, ← ih hms]
          simp
      | applied unrecorded ledger fits =>
          have hrest : (∀ m' ∈ ms, Passes a db m') ↔
              ∀ m' ∈ ms, Passes a (db.withMigration now m) m' := by
            refine forall₂_congr fun m' hm' => ?_
            have hne : m' ≠ m := fun h => hm (h ▸ hm')
            exact (passes_withMigration hne).symm
          rw [hrest, ← ih hms]
          simp only [Except.map_eq_ok]
          simp

theorem withLedger_eq_self : db.withLedger = db ↔ db.hasTable .ledger = true := by
  unfold withLedger
  split
  · rename_i h
    exact iff_of_true rfl h
  · rename_i h
    refine iff_of_false (fun heq => h ?_) h
    rw [hasTable, ← heq]
    rfl

/-- A file is brought up to date if and only if nothing stands in the way. -/
theorem isOk_migrate : (∃ ids, (db.migrate a now).answer = .ok ids) ↔ Clear a db := by
  have hprovide : (∃ db', provide a db .ledger { db with ledger := some {} } = .ok db') ↔
      a.reads = true ∧ (db.hasTable .ledger = true ∨ db.hasIndex TableName.ledger.text = false ∧
        a.changes = true ∧ a.begins = true ∧ a.commits = true) := by
    constructor
    · rintro ⟨db', h⟩
      obtain ⟨hreads, ⟨htable, -⟩ | ⟨-, hfree, hchanges, hbegins, hcommits, -⟩⟩ :=
        provide_eq_ok.mp h
      · exact ⟨hreads, .inl htable⟩
      · exact ⟨hreads, .inr ⟨hfree, hchanges, hbegins, hcommits⟩⟩
    · rintro ⟨hreads, h⟩
      cases htable : db.hasTable .ledger with
      | true => exact ⟨db, provide_eq_ok.mpr ⟨hreads, .inl ⟨htable, rfl⟩⟩⟩
      | false =>
          rw [htable] at h
          obtain ⟨hfree, hchanges, hbegins, hcommits⟩ := h.resolve_left Bool.false_ne_true
          exact ⟨_, provide_eq_ok.mpr
            ⟨hreads, .inr ⟨htable, hfree, hchanges, hbegins, hcommits, rfl⟩⟩⟩
  have hrest : (∃ ids, (db.withLedger.applyMigrations a now Migration.all).answer = .ok ids) ↔
      ∀ m ∈ Migration.all, Passes a db.withLedger m := isOk_applyMigrations Migration.nodup_all
  unfold migrate
  split
  · rename_i e he
    refine iff_of_false (by simp) fun hclear => ?_
    obtain ⟨db', hdb'⟩ := hprovide.mpr ⟨hclear.reads, hclear.ledger⟩
    rw [he] at hdb'
    cases hdb'
  · rename_i db' hdb'
    obtain ⟨hreads, hledger⟩ := hprovide.mp ⟨_, hdb'⟩
    rw [provide_ledger_eq_ok hdb', hrest]
    exact ⟨fun h => ⟨hreads, hledger, h⟩, Clear.passes⟩

end Database

end OwnershipRegistry
