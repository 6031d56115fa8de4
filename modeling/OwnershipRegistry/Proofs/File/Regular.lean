import OwnershipRegistry.Proofs.File.Chain

/-!
Regular files: those that only stores and changes of rows have built. No table
goes away in such a file, none has unrelated columns or rules of another program,
every index is one of the registry's and nothing is blocked; so a store that has
been opened finds its tables whatever is done afterwards.
-/

namespace OwnershipRegistry.Database

/-- The tables of backing records in the file ask of their rows no more than
identifiers of their own. -/
def Provisioned (db : Database) : Prop := ∀ k b, db.backing k = some b → b.Provisioned

/-- A file that comes about without changes to the tables themselves. -/
structure Regular (checked : Bool) (db : Database) : Prop extends Whole db where
  listed : checked = true → ∀ r ∈ db.entityRows, ∃ k : Kind, r.kind = .ofString k.tag
  native : db.strangers = []
  indexed : ∀ i ∈ db.indexes, ∃ n : TableName, i.name ∈ n.indexes
  unblocked : db.blocks = []
  provisioned : db.Provisioned
  plain : ∀ l, db.ledger = some l → l.form = .declared
  /-- A migration that is listed has brought its table. -/
  recorded : ∀ l (m : Migration), db.ledger = some l →
    l.applied.contains (octets m.id) = true → db.has m.table = true

variable {db db' : Database} {checked : Bool}

theorem empty_regular : (empty : Database).Regular checked where
  toWhole := empty_whole
  listed _ r hr := by cases hr
  native := rfl
  indexed i hi := by cases hi
  unblocked := rfl
  provisioned k b h := by cases k <;> cases h
  plain l h := by cases h
  recorded l m h := by cases h

/-! ### Tables stay -/

theorem has_setBacking (db : Database) (k : Kind) (b : Option BackingTable) (n : TableName) :
    (db.setBacking k b).has n = if n = .ofKind k then b.isSome else db.has n := by
  cases k <;> cases n <;> rfl

@[simp] theorem has_withBackingRow (db : Database) (k : Kind) (id : Cell) (n : TableName) :
    (db.withBackingRow k id).has n = db.has n := by
  rw [withBackingRow, has_setBacking]
  split_ifs with hn
  · rw [hn, has_ofKind, Option.isSome_map]
  · rfl

@[simp] theorem has_withEntity (db : Database) (r : EntityRow) (n : TableName) :
    (db.withEntity r).has n = db.has n := by
  cases n <;> simp [withEntity, has]

@[simp] theorem has_withSession (db : Database) (s : SessionRow) (n : TableName) :
    (db.withSession s).has n = db.has n := by
  cases n <;> simp [withSession, has]

@[simp] theorem has_withoutSessions (db : Database) (p : SessionRow → Bool) (n : TableName) :
    (db.withoutSessions p).has n = db.has n := by
  cases n <;> simp [withoutSessions, has]

@[simp] theorem has_withoutEntities (db : Database) (p : EntityRow → Bool) (n : TableName) :
    (db.withoutEntities p).has n = db.has n := by
  cases n <;> simp [withoutEntities, has]

@[simp] theorem has_withoutBacking (db : Database) (k : Kind) (id : Cell) (n : TableName) :
    (db.withoutBacking k id).has n = db.has n := by
  rw [withoutBacking, has_withoutEntities, has_setBacking]
  split_ifs with hn
  · rw [hn, has_ofKind, Option.isSome_map]
  · rfl

theorem has_addTable (db : Database) (m : Migration) (n : TableName) :
    (m.addTable db).has n = (db.has n || n == m.table) := by
  cases m <;> cases n <;> simp [Migration.addTable, Migration.table, has]

theorem has_ledger (db : Database) (l : Ledger) (n : TableName) :
    ({ db with ledger := some l } : Database).has n = (db.has n || n == .ledger) := by
  cases n <;> simp [has]

/-- No step takes a table away. -/
theorem Altered.has_of_has (h : Altered checked db db') {n : TableName}
    (hn : db.has n = true) : db'.has n = true := by
  cases h with
  | backingTableMade k absent =>
      rw [has_setBacking]
      split_ifs
      · rfl
      · exact hn
  | migrated m l now absent listing => rw [has_ledger, has_addTable, hn]; rfl
  | same | backingAdded | backingRemoved | entityAdded | entitiesRemoved | sessionAdded
  | sessionsRemoved | ledgerMade | forgotten => simp [has_ledger, hn]

theorem Becomes.has_of_has (h : Becomes checked db db') {n : TableName}
    (hn : db.has n = true) : db'.has n = true :=
  h.invariant hn fun _ _ hp hstep => hstep.has_of_has hp

/-! ### Regular files stay regular -/

theorem Altered.strangers_eq (h : Altered checked db db') : db'.strangers = db.strangers := by
  cases h with
  | backingAdded | backingRemoved | backingTableMade =>
      simp [withBackingRow, withoutBacking, withoutEntities]
  | migrated m => exact strangers_addTable m db
  | same | entityAdded | entitiesRemoved | sessionAdded | sessionsRemoved | ledgerMade
  | forgotten => rfl

/-- A step makes no index but those of a migration. -/
theorem Altered.indexed (h : Altered checked db db')
    (hdb : ∀ i ∈ db.indexes, ∃ n : TableName, i.name ∈ n.indexes) :
    ∀ i ∈ db'.indexes, ∃ n : TableName, i.name ∈ n.indexes := by
  cases h with
  | backingAdded | backingRemoved | backingTableMade =>
      simpa [withBackingRow, withoutBacking, withoutEntities] using hdb
  | migrated m l now absent listing =>
      intro i hi
      rcases List.mem_append.mp (indexes_addTable m db ▸ hi) with hi | hi
      · exact hdb i hi
      · obtain ⟨name, hname, rfl⟩ := List.mem_map.mp hi
        exact ⟨m.table, hname⟩
  | same | entityAdded | entitiesRemoved | sessionAdded | sessionsRemoved | ledgerMade
  | forgotten => exact hdb

theorem Altered.blocks_eq (h : Altered checked db db') : db'.blocks = db.blocks := by
  cases h with
  | backingAdded | backingRemoved | backingTableMade =>
      simp [withBackingRow, withoutBacking, withoutEntities]
  | migrated m => exact blocks_addTable m db
  | same | entityAdded | entitiesRemoved | sessionAdded | sessionsRemoved | ledgerMade
  | forgotten => rfl

theorem backing_withoutEntities (db : Database) (p : EntityRow → Bool) (k : Kind) :
    (db.withoutEntities p).backing k = db.backing k := by
  cases k <;> rfl

theorem Provisioned.setBacking (h : db.Provisioned) {k : Kind} {t : Option BackingTable}
    (ht : ∀ b, t = some b → b.Provisioned) : (db.setBacking k t).Provisioned := by
  intro k' b hb
  rw [backing_setBacking] at hb
  split_ifs at hb with hk
  · exact ht b hb
  · exact h k' b hb

theorem Provisioned.map (h : db.Provisioned) (k : Kind) {f : BackingTable → BackingTable}
    (hf : ∀ b : BackingTable, b.Provisioned → (f b).Provisioned) :
    (db.setBacking k ((db.backing k).map f)).Provisioned := by
  refine h.setBacking fun b hb => ?_
  obtain ⟨b₀, hb₀, rfl⟩ := Option.map_eq_some_iff.mp hb
  exact hf b₀ (h k b₀ hb₀)

theorem backing_eq_of_rows {x y : Option BackingTable} (hx : ∀ b, x = some b → b.Provisioned)
    (hy : ∀ b, y = some b → b.Provisioned)
    (h : x.map BackingTable.rows = y.map BackingTable.rows) : x = y := by
  cases x with
  | none => cases y with
    | none => rfl
    | some b => cases h
  | some a => cases y with
    | none => cases h
    | some b =>
        have hrows : a.rows = b.rows := Option.some.inj h
        rw [show a = { rows := a.rows } from hx a rfl, show b = { rows := b.rows } from hy b rfl,
          hrows]

/-- Files whose tables of backing records are provisioned are the same if they hold the
same. -/
theorem Provisioned.holdsAs_iff (h : db.Provisioned) (h' : db'.Provisioned) :
    db.holdsAs db' = true ↔ db = db' := by
  simp only [holdsAs, Bool.and_eq_true, beq_iff_eq]
  constructor
  · rintro ⟨⟨⟨⟨⟨⟨⟨hbots, husers⟩, hentities⟩, hsessions⟩, hledger⟩, hstrangers⟩, hindexes⟩, hblocks⟩
    have hbots : db.bots = db'.bots := backing_eq_of_rows (h .bot) (h' .bot) hbots
    have husers : db.users = db'.users := backing_eq_of_rows (h .user) (h' .user) husers
    cases db
    cases db'
    simp only [mk.injEq]
    exact ⟨hbots, husers, hentities, hsessions, hledger, hstrangers, hindexes, hblocks⟩
  · rintro rfl
    simp

theorem Altered.provisioned (h : Altered checked db db') (hdb : db.Provisioned) :
    db'.Provisioned := by
  cases h with
  | backingAdded k₀ id => exact hdb.map k₀ fun b hb => hb.add id
  | backingRemoved k₀ id =>
      intro k b hb
      rw [withoutBacking, backing_withoutEntities] at hb
      exact hdb.map k₀ (fun b hb => hb.remove id) k b hb
  | backingTableMade =>
      refine hdb.setBacking fun b hb => ?_
      rw [← Option.some.inj hb, BackingTable.Provisioned]
  | migrated m =>
      intro k b hb
      refine hdb k b (Eq.trans ?_ hb)
      rw [← backing_addTable m db k]
      cases k <;> rfl
  | same | entityAdded | entitiesRemoved | sessionAdded | sessionsRemoved | ledgerMade
  | forgotten =>
      intro k b hb
      refine hdb k b (Eq.trans ?_ hb)
      cases k <;> rfl

/-- A step leaves the ledger, makes it, adds the record of a migration whose
table comes with it, or takes records away. -/
theorem Altered.ledger_cases (h : Altered checked db db') :
    db'.ledger = db.ledger ∨ db'.ledger = some {} ∨
      (∃ l m r, db.ledger = some l ∧ r.id = Migration.id m ∧ db'.has m.table = true ∧
        db'.ledger = some { l with applied := l.applied.insert r }) ∨
      ∃ l p, db.ledger = some l ∧ db'.ledger = some { l with applied := l.applied.keep p } := by
  cases h with
  | ledgerMade absent => exact .inr (.inl rfl)
  | migrated m l now absent listing =>
      refine .inr (.inr (.inl ⟨l, m, ⟨m.id, now.offsetText⟩, listing, rfl, ?_, rfl⟩))
      rw [has_ledger, has_addTable, beq_self_eq_true, Bool.or_true]
      rfl
  | forgotten l p listing => exact .inr (.inr (.inr ⟨l, p, listing, rfl⟩))
  | backingAdded | backingRemoved | backingTableMade =>
      exact .inl (by simp [withBackingRow, withoutBacking, withoutEntities])
  | same | entityAdded | entitiesRemoved | sessionAdded | sessionsRemoved => exact .inl rfl

theorem Altered.plain (h : Altered checked db db')
    (hdb : ∀ l, db.ledger = some l → l.form = .declared) :
    ∀ l, db'.ledger = some l → l.form = .declared := by
  intro l' hl'
  obtain heq | heq | ⟨l, m, r, hl, -, -, heq⟩ | ⟨l, p, hl, heq⟩ := h.ledger_cases
  · exact hdb l' (heq ▸ hl')
  all_goals
    rw [heq, Option.some.injEq] at hl'
    subst hl'
  · rfl
  · exact hdb l hl
  · exact hdb l hl

theorem migration_id_injective {m m' : Migration} (h : octets m.id = octets m'.id) : m = m' := by
  have hid := octets_injective h
  cases m <;> cases m' <;> first | rfl | exact absurd hid (by decide)

theorem Altered.recorded (h : Altered checked db db')
    (hdb : ∀ l (m : Migration), db.ledger = some l →
      l.applied.contains (octets m.id) = true → db.has m.table = true) :
    ∀ l (m : Migration), db'.ledger = some l →
      l.applied.contains (octets m.id) = true → db'.has m.table = true := by
  intro l' m' hl' hm'
  obtain heq | heq | ⟨l, m, r, hl, hr, hm, heq⟩ | ⟨l, p, hl, heq⟩ := h.ledger_cases
  · exact h.has_of_has (hdb l' m' (heq ▸ hl') hm')
  all_goals
    rw [heq, Option.some.injEq] at hl'
    subst hl'
  · cases hm'
  -- the record of a migration comes with its table
  · rcases Table.contains_insert.mp hm' with hid | hold
    · have hid : octets m'.id = octets m.id := by simpa [hr] using hid
      rwa [migration_id_injective hid]
    · exact h.has_of_has (hdb l m' hl hold)
  · obtain ⟨x, hx, hid⟩ := Table.contains_iff.mp hm'
    have hold := Table.contains_iff.mpr ⟨x, (Table.mem_rows_keep.mp hx).1, hid⟩
    exact h.has_of_has (hdb l m' hl hold)

/-- Every step keeps a file regular. -/
theorem Altered.regular (h : Altered checked db db') (hdb : db.Regular checked) :
    db'.Regular checked where
  toWhole := h.whole hdb.toWhole
  listed hc r hr := by
    subst hc
    exact h.listed_of_mem hr (hdb.listed rfl r)
  native := h.strangers_eq.trans hdb.native
  indexed := h.indexed hdb.indexed
  unblocked := h.blocks_eq.trans hdb.unblocked
  provisioned := h.provisioned hdb.provisioned
  plain := h.plain hdb.plain
  recorded := h.recorded hdb.recorded

theorem Becomes.regular (h : Becomes checked db db') (hdb : db.Regular checked) :
    db'.Regular checked :=
  h.invariant hdb fun _ _ hp hstep => hstep.regular hp

/-- In a regular file every entity is of one of the kinds and has its backing
record, as far as kinds are checked. -/
theorem Regular.backed_of_mem (h : db.Regular true) {r : EntityRow} (hr : r ∈ db.entityRows) :
    db.Backed r :=
  backed_iff.mpr ⟨h.backed r hr, h.listed rfl r hr⟩

theorem Regular.hasStranger_eq_false (h : db.Regular checked) (name : String) :
    db.hasStranger name = false := by
  simp [hasStranger, h.native]

/-- No index takes the name of a table of the registry's. -/
theorem Regular.hasIndex_eq_false (h : db.Regular checked) (n : TableName) :
    db.hasIndex n.text = false := by
  have hnames : ∀ n n' : TableName, ∀ name ∈ n'.indexes, sameName n.text name = false := by
    intro n n'
    cases n' <;> cases n <;> decide
  refine List.any_eq_false.mpr fun i hi => ?_
  obtain ⟨n', hi⟩ := h.indexed i hi
  exact Bool.eq_false_iff.mp (hnames n n' i.name hi)

theorem Regular.isBlocked_eq_false (h : db.Regular checked) (n : TableName) (c : Change) :
    db.isBlocked n c = false := by
  simp [isBlocked, h.unblocked]

theorem Regular.standing_ne_unrelated (h : db.Regular checked) (n : TableName) :
    db.standing n ≠ .unrelated := by
  rw [standing, h.hasStranger_eq_false]
  split <;> simp

/-! ### What a store that has been opened finds -/

theorem appliedAt?_eq_some {m : Migration} {time : String}
    (h : db.appliedAt? m = .ok (some time)) :
    ∃ l, db.ledger = some l ∧ l.applied.contains (octets m.id) = true := by
  rw [appliedAt?, understood_eq_ok] at h
  obtain ⟨hu, h⟩ := h
  have hl : db.has .ledger = true := has_of_refusal_eq_none rfl hu
  obtain ⟨l, hl⟩ := Option.isSome_iff_exists.mp hl
  refine ⟨l, hl, ?_⟩
  simp only [hl, Option.getD_some] at h
  split at h
  · cases h
  · obtain ⟨row, hrow, -⟩ := Option.map_eq_some_iff.mp (Except.ok.inj h)
    obtain ⟨hmem, hid⟩ := Table.find?_eq_some_iff.mp hrow
    exact Table.contains_iff.mpr ⟨row, hmem, hid⟩

/-- A migration is found in the ledger, or brings its table and is recorded. -/
theorem applyMigration_eq_ok {a : Access} {now : Instant} {m : Migration} {applied : Bool}
    (h : (db.applyMigration a now m).answer = .ok applied) :
    (applied = false ∧ (db.applyMigration a now m).store = db ∧
        ∃ time, db.appliedAt? m = .ok (some time)) ∨
      (applied = true ∧ db.appliedAt? m = .ok none ∧ ∃ mid, m.up a db = .ok mid ∧
        mid.record m now = .ok (db.applyMigration a now m).store) := by
  cases hbegins : a.begins with
  | false =>
      rw [applyMigration, hbegins] at h
      cases h
  | true =>
      cases happlied : db.appliedAt? m with
      | error f =>
          simp only [applyMigration, hbegins, happlied] at h
          cases h
      | ok found =>
          cases found with
          | some time =>
              simp only [applyMigration, hbegins, happlied] at h ⊢
              exact .inl ⟨(Except.ok.inj h).symm, rfl, time, rfl⟩
          | none =>
              cases hup : (m.up a db).bind (·.record m now) with
              | error f =>
                  simp only [applyMigration, hbegins, happlied, hup] at h
                  cases h
              | ok db' =>
                  rw [applyMigration, hbegins, happlied] at h ⊢
                  simp only [hup] at h ⊢
                  cases hcommits : a.commits with
                  | false =>
                      rw [hcommits] at h
                      cases h
                  | true =>
                      rw [hcommits] at h
                      obtain ⟨mid, hmid, hrec⟩ := Except.bind_eq_ok.mp hup
                      exact .inr ⟨(Except.ok.inj h).symm, trivial, mid, hmid, hrec⟩

theorem applyMigration_has {a : Access} {now : Instant} {m : Migration} {applied : Bool}
    (hdb : db.Regular checked) (h : (db.applyMigration a now m).answer = .ok applied) :
    (db.applyMigration a now m).store.has m.table = true := by
  obtain ⟨-, hstore, time, hfound⟩ | ⟨-, -, mid, hmid, hrec⟩ := applyMigration_eq_ok h
  · obtain ⟨l, hl, hlisted⟩ := appliedAt?_eq_some hfound
    rw [hstore]
    exact hdb.recorded l m hl hlisted
  · obtain ⟨-, -, rfl⟩ := up_eq_ok.mp hmid
    obtain ⟨l, -, hstore⟩ := record_eq_ok hrec
    rw [hstore, has_ledger, has_addTable, beq_self_eq_true, Bool.or_true]
    rfl

theorem applyMigrations_has {a : Access} {now : Instant} {ms ids : List Migration}
    (hdb : db.Regular checked) (h : (db.applyMigrations a now ms).answer = .ok ids) :
    ∀ m ∈ ms, (db.applyMigrations a now ms).store.has m.table = true := by
  induction ms generalizing db ids with
  | nil =>
      intro m hm
      cases hm
  | cons first ms ih =>
      have hstep : Altered checked db (db.applyMigration a now first).store :=
        applyMigration_altered a now db first
      simp only [applyMigrations] at h ⊢
      cases hfirst : (db.applyMigration a now first).answer with
      | error e =>
          rw [hfirst] at h
          cases h
      | ok applied =>
          rw [hfirst] at h
          obtain ⟨rest, hrest, -⟩ := Except.map_eq_ok.mp h
          intro m hm
          rcases List.mem_cons.mp hm with rfl | hm
          -- later migrations leave the table that this one has found or brought
          · have hhere := applyMigration_has hdb hfirst
            have hrest : Becomes checked (db.applyMigration a now m).store _ :=
              applyMigrations_becomes a now ms _
            exact hrest.has_of_has hhere
          · exact ih (hstep.regular hdb) hrest m hm

theorem migrate_has {a : Access} {now : Instant} {ids : List Migration}
    (hdb : db.Regular checked) (h : (db.migrate a now).answer = .ok ids) :
    (db.migrate a now).store.has .entities = true ∧
      (db.migrate a now).store.has .sessions = true := by
  unfold migrate at h ⊢
  split at h
  · cases h
  · rename_i db' hledger
    rw [provide_ledger_eq_ok hledger] at h ⊢
    have hregular := (withLedger_altered db).regular hdb
    have hall := applyMigrations_has hregular h
    exact ⟨hall .addEntities (by decide), hall .addSessions (by decide)⟩

/-- The tables of backing records are there once they have been provided. -/
theorem provideBacking_has {a : Access} {ks : List Kind} (hdb : db.Regular checked)
    (h : (db.provideBacking a ks).answer = .ok ()) :
    ∀ k ∈ ks, (db.provideBacking a ks).store.has (.ofKind k) = true := by
  induction ks generalizing db with
  | nil =>
      intro k hk
      cases hk
  | cons first ks ih =>
      unfold provideBacking at h ⊢
      cases hfirst : provide a db (.ofKind first) (db.setBacking first (some {})) with
      | error e =>
          rw [hfirst] at h
          cases h
      | ok db' =>
          rw [hfirst] at h
          have hstep : Altered checked db db' := provide_backing_altered hfirst
          have hhere : db'.has (.ofKind first) = true := by
            obtain ⟨-, ⟨htable, rfl⟩ | ⟨-, -, -, -, -, rfl⟩⟩ := provide_eq_ok.mp hfirst
            · rwa [hasTable, hdb.hasStranger_eq_false, Bool.or_false] at htable
            · rw [has_setBacking, if_pos rfl]
              rfl
          intro k hk
          rcases List.mem_cons.mp hk with rfl | hk
          · have hrest : Becomes checked db' _ := provideBacking_becomes a ks db'
            exact hrest.has_of_has hhere
          · exact ih (hstep.regular hdb) h k hk

/-- A store that has been opened on a regular file finds the tables of entities
and sessions, and those of the backing records too if it was to make them. -/
theorem prepare_has {a : Access} {now : Instant} {c : StoreConfig} {ids : List Migration}
    (hdb : db.Regular checked) (h : (db.prepare a now c).answer = .ok ids) :
    (db.prepare a now c).store.has .entities = true ∧
      (db.prepare a now c).store.has .sessions = true ∧
      (c.provisionBacking = true →
        ∀ k, (db.prepare a now c).store.has (.ofKind k) = true) := by
  unfold prepare at h ⊢
  generalize hks : (if c.provisionBacking then Kind.all else []) = ks at h ⊢
  have hregular := (provideBacking_becomes a ks db).regular hdb
  simp only at h ⊢
  cases hstart : (db.provideBacking a ks).answer with
  | error e =>
      rw [hstart] at h
      cases h
  | ok done =>
      rw [hstart] at h
      cases hmigrate : ((db.provideBacking a ks).store.migrate a now).answer with
      | error e =>
          simp only [hmigrate] at h
          cases h
      | ok applied =>
          obtain ⟨he, hs⟩ := migrate_has hregular hmigrate
          have hrest : Becomes checked _ _ := migrate_becomes a now (db.provideBacking a ks).store
          refine ⟨he, hs, fun hp k => hrest.has_of_has ?_⟩
          rw [if_pos hp] at hks
          have hk : k ∈ ks := hks ▸ by cases k <;> decide
          exact provideBacking_has hdb hstart k hk

theorem openStore_becomes (a : Access) (now : Instant) (c : StoreConfig)
    (journal : Option String) (db : Database) :
    Becomes checked db (db.openStore a now c journal).store :=
  prepare_becomes a now c db

theorem openStore_has {a : Access} {now : Instant} {c : StoreConfig} {journal : Option String}
    {ids : List Migration} (hdb : db.Regular checked)
    (h : (db.openStore a now c journal).answer = .ok ids) :
    (db.openStore a now c journal).store.has .entities = true ∧
      (db.openStore a now c journal).store.has .sessions = true ∧
      (c.provisionBacking = true →
        ∀ k, (db.openStore a now c journal).store.has (.ofKind k) = true) :=
  prepare_has hdb h

end OwnershipRegistry.Database
