import OwnershipRegistry.File.Change
import OwnershipRegistry.Proofs.Table

/-!
The rows of the file and what statements make of them. A statement that succeeds
adds one row, or takes rows away together with what hangs on them; here each of
these is a function of the file, and a statement that succeeds is one of them
under the guards that it has passed.
-/

namespace OwnershipRegistry

namespace BackingTable

variable {b : BackingTable} {c : Cell}

@[simp] theorem rows_ids (b : BackingTable) : b.ids.rows = b.rows.rows.map BackingRow.id := rfl

theorem contains_ids (b : BackingTable) (c : Cell) : b.ids.contains c = b.rows.contains c := by
  refine Table.contains_map ?_ b.rows
  exact fun _ => rfl

@[simp] theorem ids_add (b : BackingTable) (c : Cell) : (b.add c).ids = b.ids.insert c :=
  (Table.insert_map b.rows (b.newRow c)).symm

@[simp] theorem ids_remove (b : BackingTable) (c : Cell) : (b.remove c).ids = b.ids.erase c := by
  refine (Table.erase_map ?_ b.rows).symm
  exact fun _ => rfl

/-- A new row breaks no rule of its table. -/
structure Accepts (b : BackingTable) (c : Cell) : Prop where
  filled : b.guard = none
  checks : ∀ check ∈ b.checks, check.holds (b.newRow c) = true
  keys : ∀ key ∈ b.keys, key.meets b.rows.rows (b.newRow c) = false
  free : b.ids.contains c = false
  refers : b.refers (b.newRow c) = true

theorem faults_eq_nil_iff {k : Kind} : b.faults {} k c = [] ↔ b.Accepts c := by
  simp only [faults, List.append_eq_nil_iff, List.map_eq_nil_iff, List.filter_eq_nil_iff,
    Option.toList_eq_nil_iff, Option.map_eq_none_iff, Bool.true_and, Bool.not_eq_true',
    Bool.not_eq_false, Bool.not_eq_true]
  constructor
  · rintro ⟨⟨⟨⟨hfilled, hchecks⟩, hkeys⟩, hfree⟩, hrefers⟩
    exact ⟨hfilled, hchecks, hkeys, by simpa using hfree, by simpa using hrefers⟩
  · rintro ⟨hfilled, hchecks, hkeys, hfree, hrefers⟩
    exact ⟨⟨⟨⟨hfilled, hchecks⟩, hkeys⟩, by simpa using hfree⟩, by simpa using hrefers⟩

theorem free_of_faults_eq_nil {rules : Rules} {k : Kind} (h : b.faults rules k c = []) :
    b.ids.contains c = false := by
  simp only [faults, List.append_eq_nil_iff] at h
  simpa using h.1.2

/-- A table takes no new row under an identifier, whether there is one or not: the row
leaves a further column empty that has to be filled, does not meet a condition or agrees
with another row in a further key. -/
inductive Refuses (b : BackingTable) (c : Cell) : Prop
  | unfilled (column : String) (guard : b.guard = some column)
  | unmet (check : RowCheck) (mem : check ∈ b.checks) (fails : check.holds (b.newRow c) = false)
  | shared (key : RowKey) (mem : key ∈ b.keys)
      (meets : key.meets b.rows.rows (b.newRow c) = true)

theorem Accepts.not_refuses (h : b.Accepts c) : ¬b.Refuses c := by
  rintro (⟨column, hguard⟩ | ⟨check, hmem, hfails⟩ | ⟨key, hmem, hmeets⟩)
  · cases h.filled.symm.trans hguard
  · cases (h.checks check hmem).symm.trans hfails
  · cases (h.keys key hmem).symm.trans hmeets

/-- What a fault tells of the table whose rule a new row breaks. -/
theorem tells_of_mem_faults {rules : Rules} {k : Kind} {fault : Fault}
    (h : fault ∈ b.faults rules k c) :
    (fault.isOfRow = true ∧ b.Refuses c) ∨
      (b.ids.contains c = true ∧ ∃ columns, fault = .taken columns) ∨ fault = .noReferent := by
  simp only [faults, List.mem_append, List.mem_map, List.mem_filter, Option.mem_toList,
    Option.map_eq_some_iff, Bool.and_eq_true, Bool.not_eq_true', List.mem_ite_nil_right,
    List.mem_singleton] at h
  rcases h with (((⟨column, hguard, rfl⟩ | ⟨check, ⟨hmem, -, hfails⟩, rfl⟩) |
    ⟨key, ⟨hmem, hmeets⟩, rfl⟩) | ⟨htaken, rfl⟩) | ⟨-, rfl⟩
  · exact .inl ⟨rfl, .unfilled column hguard⟩
  · exact .inl ⟨rfl, .unmet check hmem hfails⟩
  · exact .inl ⟨rfl, .shared key hmem hmeets⟩
  · exact .inr (.inl ⟨htaken, _, rfl⟩)
  · exact .inr (.inr rfl)

/-- A table asks of its rows no more than identifiers of their own. -/
def Provisioned (b : BackingTable) : Prop := b = { rows := b.rows }

theorem Provisioned.add (h : b.Provisioned) (c : Cell) : (b.add c).Provisioned := by
  rw [Provisioned] at h
  rw [h]
  rfl

theorem Provisioned.remove (h : b.Provisioned) (c : Cell) : (b.remove c).Provisioned := by
  rw [Provisioned] at h
  rw [h]
  rfl

theorem Provisioned.faults_eq (h : b.Provisioned) (rules : Rules) (k : Kind) (c : Cell) :
    b.faults rules k c =
      if b.ids.contains c then [.taken [(TableName.ofKind k).column k.idColumn]] else [] := by
  rw [Provisioned] at h
  rw [h, faults]
  simp

/-- The table of some identifiers, without further columns. -/
def holding (ids : Table Cell id) : BackingTable where
  rows := ids.map (fun c => ⟨c, []⟩) fun _ _ => rfl

theorem holding_provisioned (ids : Table Cell id) : (holding ids).Provisioned := rfl

@[simp] theorem ids_holding (ids : Table Cell id) : (holding ids).ids = ids :=
  Table.ext ((List.map_map ..).trans (List.map_id _))

@[simp] theorem holding_add (ids : Table Cell id) (c : Cell) :
    (holding ids).add c = holding (ids.insert c) :=
  congrArg (fun rows => ({ rows } : BackingTable)) (Table.insert_map ids c)

@[simp] theorem holding_remove (ids : Table Cell id) (c : Cell) :
    (holding ids).remove c = holding (ids.erase c) := by
  refine congrArg (fun rows => ({ rows } : BackingTable)) (Table.erase_map ?_ ids)
  exact fun _ => rfl

end BackingTable

namespace Database

/-! ### Rows -/

/-- The identifiers of the backing records of a kind. -/
def backingIds (db : Database) (k : Kind) : List Cell := ((db.backing k).getD {}).ids.rows

/-- The entities, none if their table is not there. -/
def entityRows (db : Database) : List EntityRow := (db.entities.getD ∅).rows

/-- The sessions, none if their table is not there. -/
def sessionRows (db : Database) : List SessionRow := (db.sessions.getD ∅).rows

@[simp] theorem backing_setBacking (db : Database) (k k' : Kind) (b : Option BackingTable) :
    (db.setBacking k b).backing k' = if k' = k then b else db.backing k' := by
  cases k <;> cases k' <;> rfl

@[simp] theorem entities_setBacking (db : Database) (k : Kind) (b : Option BackingTable) :
    (db.setBacking k b).entities = db.entities := by
  cases k <;> rfl

@[simp] theorem sessions_setBacking (db : Database) (k : Kind) (b : Option BackingTable) :
    (db.setBacking k b).sessions = db.sessions := by
  cases k <;> rfl

@[simp] theorem ledger_setBacking (db : Database) (k : Kind) (b : Option BackingTable) :
    (db.setBacking k b).ledger = db.ledger := by
  cases k <;> rfl

@[simp] theorem strangers_setBacking (db : Database) (k : Kind) (b : Option BackingTable) :
    (db.setBacking k b).strangers = db.strangers := by
  cases k <;> rfl

@[simp] theorem indexes_setBacking (db : Database) (k : Kind) (b : Option BackingTable) :
    (db.setBacking k b).indexes = db.indexes := by
  cases k <;> rfl

@[simp] theorem blocks_setBacking (db : Database) (k : Kind) (b : Option BackingTable) :
    (db.setBacking k b).blocks = db.blocks := by
  cases k <;> rfl

theorem setBacking_backing (db : Database) (k : Kind) : db.setBacking k (db.backing k) = db := by
  cases k <;> rfl

theorem has_ofKind (db : Database) (k : Kind) :
    db.has (.ofKind k) = (db.backing k).isSome := by
  cases k <;> rfl

/-! ### What statements make of the file -/

/-- The file without the sessions that pass a test. -/
def withoutSessions (db : Database) (p : SessionRow → Bool) : Database :=
  { db with sessions := db.sessions.map (·.keep fun s => !p s) }

/-- The file without the entities that pass a test and without their sessions. -/
def withoutEntities (db : Database) (p : EntityRow → Bool) : Database :=
  { db with
    entities := db.entities.map (·.keep fun r => !p r)
    sessions := db.sessions.map
      (·.keep fun s => !(p s.owner && (db.entities.getD ∅).contains s.owner)) }

/-- The file without a backing record, the entities that refer to it and their
sessions. -/
def withoutBacking (db : Database) (k : Kind) (id : Cell) : Database :=
  (db.setBacking k ((db.backing k).map (·.remove id))).withoutEntities
    fun r => r.reference k == some id

/-- The file with a further backing record. -/
def withBackingRow (db : Database) (k : Kind) (id : Cell) : Database :=
  db.setBacking k ((db.backing k).map (·.add id))

/-- The file with a further entity. -/
def withEntity (db : Database) (r : EntityRow) : Database :=
  { db with entities := db.entities.map (·.insert r) }

/-- The file with a further session. -/
def withSession (db : Database) (s : SessionRow) : Database :=
  { db with sessions := db.sessions.map (·.insert s) }

section Rows

variable {db : Database} {k k' : Kind} {id c : Cell} {r r' : EntityRow} {s s' : SessionRow}
  {p : EntityRow → Bool} {q : SessionRow → Bool}

theorem contains_entities :
    (db.entities.getD ∅).contains r = true ↔ r ∈ db.entityRows := by
  simp [Table.contains_iff, entityRows]

theorem hasEntityRow_iff : db.hasEntityRow r = true ↔ r ∈ db.entityRows := by
  rw [← contains_entities, hasEntityRow]
  cases db.entities with
  | none => simp [Table.contains]
  | some t => simp

theorem mem_backingIds {b : BackingTable} (hb : db.backing k = some b) :
    id ∈ db.backingIds k ↔ b.ids.contains id = true := by
  rw [backingIds, hb, Table.contains_iff]
  simp

theorem any_backing :
    ((db.backing k).any fun b => b.ids.contains id) = true ↔ id ∈ db.backingIds k := by
  cases hb : db.backing k with
  | none => simp [backingIds, hb]
  | some b => rw [mem_backingIds hb, Option.any_some]

theorem has_of_mem_backingIds (h : id ∈ db.backingIds k) :
    db.has (.ofKind k) = true := by
  rw [has_ofKind]
  cases hb : db.backing k with
  | none =>
      rw [backingIds, hb] at h
      cases h
  | some b => rfl

@[simp] theorem backingIds_withoutSessions :
    (db.withoutSessions q).backingIds k = db.backingIds k := by
  cases k <;> rfl

@[simp] theorem entityRows_withoutSessions :
    (db.withoutSessions q).entityRows = db.entityRows := rfl

@[simp] theorem sessionRows_withoutSessions :
    (db.withoutSessions q).sessionRows = db.sessionRows.filter fun s => !q s := by
  simp only [sessionRows, withoutSessions]
  cases db.sessions <;> simp

theorem withoutSessions_eq_self (h : ∀ r ∈ db.sessionRows, q r = false) :
    db.withoutSessions q = db := by
  have hsame : db.sessions.map (fun rows => rows.keep fun r => !q r) = db.sessions := by
    cases hs : db.sessions with
    | none => rfl
    | some rows =>
        have hkeep : (rows.keep fun r => !q r) = rows := by
          refine Table.keep_eq_self fun r hr => ?_
          have hmem : r ∈ db.sessionRows := by
            rw [sessionRows, hs]
            exact hr
          rw [h r hmem, Bool.not_false]
        rw [Option.map_some, hkeep]
  rw [withoutSessions, hsame]

@[simp] theorem backingIds_withoutEntities :
    (db.withoutEntities p).backingIds k = db.backingIds k := by
  cases k <;> rfl

@[simp] theorem entityRows_withoutEntities :
    (db.withoutEntities p).entityRows = db.entityRows.filter fun r => !p r := by
  simp only [entityRows, withoutEntities]
  cases db.entities <;> simp

@[simp] theorem mem_sessionRows_withoutEntities :
    s ∈ (db.withoutEntities p).sessionRows ↔
      s ∈ db.sessionRows ∧ (p s.owner = true → s.owner ∉ db.entityRows) := by
  rw [← contains_entities]
  simp only [sessionRows, withoutEntities]
  cases db.sessions with
  | none => simp
  | some t => cases hp : p s.owner <;> simp [hp]

@[simp] theorem mem_backingIds_withoutBacking :
    c ∈ (db.withoutBacking k id).backingIds k' ↔
      c ∈ db.backingIds k' ∧ (k' = k → c ≠ id) := by
  rw [withoutBacking, backingIds_withoutEntities, backingIds, backing_setBacking, backingIds]
  by_cases hk : k' = k
  · subst hk
    cases db.backing k' <;> simp
  · simp [hk]

@[simp] theorem entityRows_withoutBacking :
    (db.withoutBacking k id).entityRows =
      db.entityRows.filter fun r => !(r.reference k == some id) := by
  rw [withoutBacking, entityRows_withoutEntities]
  simp [entityRows]

@[simp] theorem mem_sessionRows_withoutBacking :
    s ∈ (db.withoutBacking k id).sessionRows ↔
      s ∈ db.sessionRows ∧ (s.owner.reference k = some id → s.owner ∉ db.entityRows) := by
  rw [withoutBacking, mem_sessionRows_withoutEntities]
  simp [sessionRows, entityRows]

theorem mem_backingIds_withBackingRow (hb : (db.backing k).isSome) (hid : id ∉ db.backingIds k) :
    c ∈ (db.withBackingRow k id).backingIds k' ↔ c ∈ db.backingIds k' ∨ (k' = k ∧ c = id) := by
  obtain ⟨b, hb⟩ := Option.isSome_iff_exists.mp hb
  have hfree : b.ids.contains id = false := by rwa [mem_backingIds hb, Bool.not_eq_true] at hid
  rw [withBackingRow, backingIds, backing_setBacking, backingIds]
  by_cases hk : k' = k
  · subst hk
    simp only [if_true, hb, Option.map_some, Option.getD_some, BackingTable.ids_add]
    rw [Table.mem_rows_insert (by simpa using hfree)]
    simp [or_comm]
  · simp [hk]

@[simp] theorem entityRows_withBackingRow :
    (db.withBackingRow k id).entityRows = db.entityRows := by
  simp [withBackingRow, entityRows]

@[simp] theorem sessionRows_withBackingRow :
    (db.withBackingRow k id).sessionRows = db.sessionRows := by
  simp [withBackingRow, sessionRows]

@[simp] theorem backingIds_withEntity : (db.withEntity r).backingIds k = db.backingIds k := by
  cases k <;> rfl

@[simp] theorem sessionRows_withEntity : (db.withEntity r).sessionRows = db.sessionRows := rfl

theorem mem_entityRows_withEntity (he : db.entities.isSome) (hr : r ∉ db.entityRows) :
    r' ∈ (db.withEntity r).entityRows ↔ r' = r ∨ r' ∈ db.entityRows := by
  obtain ⟨t, ht⟩ := Option.isSome_iff_exists.mp he
  have hfree : t.contains r = false := by
    simpa [← Bool.not_eq_true, Table.contains_iff, entityRows, ht] using hr
  simp only [withEntity, entityRows, ht, Option.map_some, Option.getD_some]
  exact Table.mem_rows_insert hfree

@[simp] theorem backingIds_withSession : (db.withSession s).backingIds k = db.backingIds k := by
  cases k <;> rfl

@[simp] theorem entityRows_withSession : (db.withSession s).entityRows = db.entityRows := rfl

theorem mem_sessionRows_withSession (ht : db.sessions.isSome)
    (hs : ∀ x ∈ db.sessionRows, x.id ≠ s.id) :
    s' ∈ (db.withSession s).sessionRows ↔ s' = s ∨ s' ∈ db.sessionRows := by
  obtain ⟨t, ht⟩ := Option.isSome_iff_exists.mp ht
  have hfree : t.contains s.id = false := by
    rw [Table.contains_eq_false_iff]
    simpa [sessionRows, ht] using hs
  simp only [withSession, sessionRows, ht, Option.map_some, Option.getD_some]
  exact Table.mem_rows_insert hfree

end Rows

end Database

end OwnershipRegistry
