import OwnershipRegistry.Proofs.File.Views

/-!
The file by the pairs of an identifier and a kind. What the file holds of a pair are
the backing record, the entity and the sessions of that pair; all the rest, the tables
themselves and what other programs have blocked, is the same for all pairs. A
statement about a pair is understood, refused and carried out on what the file holds
of some pairs as on the whole, if the pair is one of them.
-/

namespace OwnershipRegistry

namespace BackingTable

/-- The backing records whose identifiers pass a test. -/
def keep (b : BackingTable) (p : Cell → Bool) : BackingTable :=
  { b with rows := b.rows.keep fun row => p row.id }

variable {b : BackingTable} {p : Cell → Bool} {c : Cell}

@[simp] theorem ids_keep : (b.keep p).ids = b.ids.keep p := (Table.keep_map b.rows p).symm

theorem Provisioned.keep (h : b.Provisioned) (p : Cell → Bool) : (b.keep p).Provisioned := by
  rw [Provisioned] at h
  rw [h]
  rfl

theorem keep_remove : (b.keep p).remove c = (b.remove c).keep p := by
  simp only [BackingTable.keep, remove, Table.erase, Table.keep_comm b.rows]

theorem keep_add (hfree : b.ids.contains c = false) (hc : p c = true) :
    (b.keep p).add c = (b.add c).keep p := by
  rw [contains_ids] at hfree
  have hrows := Table.insert_keep (p := fun row => p row.id) (r := b.newRow c) hfree hc
  exact congrArg (fun rows => ({ b with rows } : BackingTable)) hrows

theorem keep_remove_of_neg (hc : p c = false) : (b.remove c).keep p = b.keep p := by
  have hrows := Table.keep_erase_of_neg (t := b.rows) (p := fun row => p row.id) (k := c)
    fun row _ hid => by rw [hid, hc]
  exact congrArg (fun rows => ({ b with rows } : BackingTable)) hrows

theorem keep_add_of_neg (hfree : b.ids.contains c = false) (hc : p c = false) :
    (b.add c).keep p = b.keep p := by
  rw [contains_ids] at hfree
  have hrows := Table.keep_insert_of_neg (p := fun row => p row.id) (r := b.newRow c) hfree hc
  exact congrArg (fun rows => ({ b with rows } : BackingTable)) hrows

theorem keep_ext {b' : BackingTable} (p : Cell → Bool) (h : b.keep p = b'.keep p)
    (h' : b.keep (fun c => !p c) = b'.keep fun c => !p c) : b = b' := by
  cases b
  cases b'
  simp only [BackingTable.keep, mk.injEq] at h h' ⊢
  exact ⟨Table.ext_of_keep _ h.1 h'.1, h.2⟩

end BackingTable

namespace Database

/-- What the file holds of some pairs. -/
def only (F : EntityRow → Bool) (db : Database) : Database :=
  { db with
    bots := db.bots.map (·.keep fun id => F ⟨id, .ofString Kind.bot.tag⟩)
    users := db.users.map (·.keep fun id => F ⟨id, .ofString Kind.user.tag⟩)
    entities := db.entities.map (·.keep F)
    sessions := db.sessions.map (·.keep fun s => F s.owner) }

variable {db : Database} {F G : EntityRow → Bool} {k : Kind} {c : Cell} {r : EntityRow}
  {rules : Rules} {t : Target}

@[simp] theorem backing_only (k : Kind) :
    (db.only F).backing k = (db.backing k).map (·.keep fun id => F ⟨id, .ofString k.tag⟩) := by
  cases k <;> rfl

theorem setBacking_only (k : Kind) (b : Option BackingTable) :
    (db.only F).setBacking k (b.map (·.keep fun id => F ⟨id, .ofString k.tag⟩)) =
      (db.setBacking k b).only F := by
  cases k <;> rfl

theorem sameTables_only (F : EntityRow → Bool) (db : Database) : db.SameTables (db.only F) where
  has n := by cases n <;> simp [has, only]
  ledger := rfl
  strangers := rfl
  indexes := rfl
  blocks := rfl

theorem understood_only {α : Type} (s : Statement) (f : Except Fault α) :
    (db.only F).understood rules s f = db.understood rules s f :=
  understood_congr (sameTables_only F db).outline_eq rules s f

/-! ### What makes up the file -/

theorem ext_of_map_keep {ρ κ : Type} [Ord κ] [Std.LawfulEqOrd κ] [Std.TransOrd κ] {key : ρ → κ}
    {x y : Option (Table ρ key)} (p : ρ → Bool) (h : x.map (·.keep p) = y.map (·.keep p))
    (h' : x.map (·.keep fun r => !p r) = y.map (·.keep fun r => !p r)) : x = y := by
  cases x with
  | none => cases y with
    | none => rfl
    | some u => cases h
  | some t => cases y with
    | none => cases h
    | some u => exact congrArg some (Table.ext_of_keep p (Option.some.inj h) (Option.some.inj h'))

theorem backing_ext_of_map_keep {x y : Option BackingTable} (p : Cell → Bool)
    (h : x.map (·.keep p) = y.map (·.keep p))
    (h' : x.map (·.keep fun c => !p c) = y.map (·.keep fun c => !p c)) : x = y := by
  cases x with
  | none => cases y with
    | none => rfl
    | some b => cases h
  | some a => cases y with
    | none => cases h
    | some b =>
        exact congrArg some (BackingTable.keep_ext p (Option.some.inj h) (Option.some.inj h'))

theorem only_ext {db' : Database} (F : EntityRow → Bool) (h : db.only F = db'.only F)
    (h' : db.only (fun r => !F r) = db'.only fun r => !F r) : db = db' := by
  cases db
  cases db'
  simp only [only, Database.mk.injEq] at h h' ⊢
  exact ⟨backing_ext_of_map_keep _ h.1 h'.1, backing_ext_of_map_keep _ h.2.1 h'.2.1,
    ext_of_map_keep _ h.2.2.1 h'.2.2.1, ext_of_map_keep _ h.2.2.2.1 h'.2.2.2.1, h.2.2.2.2⟩

/-! ### What is looked at -/

theorem contains_keep {b : BackingTable} (hr : F ⟨c, .ofString k.tag⟩ = true) :
    (b.keep fun id => F ⟨id, .ofString k.tag⟩).ids.contains c = b.ids.contains c := by
  rw [BackingTable.ids_keep]
  exact Table.contains_keep fun id _ hid => by rw [show id = c from hid, hr]

theorem any_backing_only (hr : F ⟨c, .ofString k.tag⟩ = true) :
    (((db.only F).backing k).any fun b => b.ids.contains c) =
      (db.backing k).any fun b => b.ids.contains c := by
  rw [backing_only]
  cases db.backing k with
  | none => rfl
  | some b => exact contains_keep hr

theorem contains_entities_only (hr : F r = true) :
    ((db.only F).entities.getD ∅).contains r = (db.entities.getD ∅).contains r := by
  rw [only]
  cases db.entities with
  | none => rfl
  | some rows => exact Table.contains_keep fun r' _ heq => by rw [show r' = r from heq, hr]

theorem hasEntityRow_only (hr : F r = true) : (db.only F).hasEntityRow r = db.hasEntityRow r := by
  rw [Bool.eq_iff_iff, hasEntityRow_iff, hasEntityRow_iff, ← contains_entities,
    ← contains_entities, contains_entities_only hr]

/-- A row is backed by records of its own pair. -/
theorem isBacked_only (hr : F r = true) : (db.only F).isBacked r = db.isBacked r := by
  rw [Bool.eq_iff_iff, isBacked_iff, isBacked_iff]
  refine forall_congr' fun k => imp_congr_right fun hk => ?_
  have hpair : F ⟨r.id, .ofString k.tag⟩ = true := by rwa [← hk]
  rw [← any_backing, ← any_backing, any_backing_only hpair]

theorem backingPresent_only (ht : F (.ofTarget t) = true) :
    (db.only F).backingPresent t = db.backingPresent t := by
  rw [backingPresent, understood_only, any_backing_only ht, backingPresent]

theorem entityPresent_only (ht : F (.ofTarget t) = true) :
    (db.only F).entityPresent t = db.entityPresent t := by
  rw [entityPresent, understood_only, contains_entities_only ht, entityPresent]

theorem sessionIdsOf_only (ht : F (.ofTarget t) = true) :
    (db.only F).sessionIdsOf t = db.sessionIdsOf t := by
  have hrows : ((db.only F).sessions.getD ∅).rows.filter (fun s => s.owner == .ofTarget t) =
      (db.sessions.getD ∅).rows.filter fun s => s.owner == .ofTarget t := by
    rw [only]
    cases db.sessions with
    | none => rfl
    | some rows =>
        refine (List.filter_filter ..).trans (List.filter_congr fun s _ => ?_)
        cases ho : s.owner == .ofTarget t with
        | false => rfl
        | true => simp [beq_iff_eq.mp ho, ht]
  rw [sessionIdsOf, sessionRowsOf, understood_only, hrows, sessionIdsOf, sessionRowsOf]

/-! ### Statements on some pairs -/

@[simp] theorem isBlocked_only (n : TableName) (c : Change) :
    (db.only F).isBlocked n c = db.isBlocked n c := rfl

theorem sessions_only : (db.only F).sessions = db.sessions.map (·.keep fun s => F s.owner) := rfl

theorem entities_only : (db.only F).entities = db.entities.map (·.keep F) := rfl

theorem removeSessions_only {p : SessionRow → Bool}
    (h : ∀ s ∈ db.sessionRows, p s = true → F s.owner = true) :
    (db.only F).removeSessions p = (db.removeSessions p).map (only F) := by
  cases hs : db.sessions with
  | none =>
      simp only [removeSessions, sessions_only, hs, Option.map_none]
      rfl
  | some rows =>
      rw [sessionRows, hs] at h
      have hany : (rows.keep fun s => F s.owner).rows.any p = rows.rows.any p :=
        Table.any_rows_keep h
      simp only [removeSessions, sessions_only, hs, Option.map_some, hany, isBlocked_only,
        Table.keep_comm rows fun s => F s.owner]
      split_ifs <;> rfl

theorem removeEntities_only {p : EntityRow → Bool} (h : ∀ r, p r = true → F r = true) :
    (db.only F).removeEntities rules p = (db.removeEntities rules p).map (only F) := by
  cases he : db.entities with
  | none =>
      simp only [removeEntities, entities_only, he, Option.map_none]
      rfl
  | some rows =>
      have hany : (rows.keep F).rows.any p = rows.rows.any p :=
        Table.any_rows_keep fun r _ => h r
      -- an entity of a pair that is left out does not pass the test, so its sessions stay too
      have howned : (fun s : SessionRow => p s.owner && (rows.keep F).contains s.owner) =
          fun s => p s.owner && rows.contains s.owner := by
        funext s
        cases hp : p s.owner with
        | false => rfl
        | true => exact Table.contains_keep fun r _ heq => by rw [show r = s.owner from heq, h _ hp]
      simp only [removeEntities, entities_only, he, Option.map_some, hany, isBlocked_only, howned,
        Table.keep_comm rows F]
      split_ifs
      · rfl
      · -- the sessions are those of the tables without the entities
        generalize hrest : { db with entities := some (rows.keep fun r => !p r) } = db'
        have howner : ∀ s ∈ db'.sessionRows,
            (p s.owner && rows.contains s.owner) = true → F s.owner = true := fun s _ hs =>
          h _ (Bool.and_eq_true_iff.mp hs).1
        rw [← removeSessions_only howner, ← hrest]
        rfl
      · rfl

theorem countP_rows_keep {ρ κ : Type} [Ord κ] {key : ρ → κ} {t : Table ρ key} {p q : ρ → Bool}
    (h : ∀ r ∈ t.rows, q r = true → p r = true) : (t.keep p).rows.countP q = t.rows.countP q := by
  rw [Table.rows_keep, List.countP_filter]
  refine List.countP_congr fun r hr => ?_
  rw [Bool.and_eq_true_iff]
  exact ⟨And.left, fun hq => ⟨hq, h r hr hq⟩⟩

/-- What a statement leaves and answers, on some pairs alone. -/
def onPairs {α : Type} (F : EntityRow → Bool) (x : Database × α) : Database × α :=
  (x.1.only F, x.2)

theorem deleteSessions_only {p : SessionRow → Bool}
    (h : ∀ s ∈ db.sessionRows, p s = true → F s.owner = true) :
    (db.only F).deleteSessions rules p = (db.deleteSessions rules p).map (onPairs F) := by
  have hcount : ((db.only F).sessions.getD ∅).rows.countP p =
      (db.sessions.getD ∅).rows.countP p := by
    rw [only]
    cases hs : db.sessions with
    | none => rfl
    | some rows =>
        refine countP_rows_keep fun s hmem => h s ?_
        rw [sessionRows, hs]
        exact hmem
  rw [deleteSessions, deleteSessions, understood_only, hcount, removeSessions_only h,
    ← understood_map]
  cases db.removeSessions p <;> rfl

theorem deleteEntities_only {p : EntityRow → Bool} (h : ∀ r, p r = true → F r = true) :
    (db.only F).deleteEntities rules p = (db.deleteEntities rules p).map (onPairs F) := by
  have hcount : ((db.only F).entities.getD ∅).rows.countP p =
      (db.entities.getD ∅).rows.countP p := by
    rw [only]
    cases db.entities with
    | none => rfl
    | some rows => exact countP_rows_keep fun r _ => h r
  rw [deleteEntities, deleteEntities, understood_only, hcount, removeEntities_only h,
    ← understood_map]
  cases db.removeEntities rules p <;> rfl

theorem eq_of_reference (h : r.reference k = some c) : r = ⟨c, .ofString k.tag⟩ := by
  obtain ⟨hkind, hid⟩ := reference_eq_some.mp h
  cases r
  cases hkind
  cases hid
  rfl

/-- The backing records of a kind, none if their table is not there. -/
theorem getD_backing_only (k : Kind) : ((db.only F).backing k).getD {} =
    ((db.backing k).getD {}).keep fun id => F ⟨id, .ofString k.tag⟩ := by
  rw [backing_only]
  cases db.backing k <;> rfl

theorem deleteBacking_only (hr : F ⟨c, .ofString k.tag⟩ = true) :
    (db.only F).deleteBacking rules k (some c) =
      (db.deleteBacking rules k (some c)).map (onPairs F) := by
  have hrest (b : BackingTable) :
      (db.only F).setBacking k (some ((b.keep fun id => F ⟨id, .ofString k.tag⟩).remove c)) =
      (db.setBacking k (some (b.remove c))).only F := by
    rw [← setBacking_only, Option.map_some, BackingTable.keep_remove]
  rw [deleteBacking, deleteBacking, understood_only, ← understood_map]
  congr 1
  simp only [getD_backing_only, Option.filter_some, contains_keep hr, isBlocked_only]
  cases ((db.backing k).getD {}).ids.contains c with
  | false => rfl
  | true =>
      simp only [if_true, hrest]
      split_ifs
      · rfl
      · rw [removeEntities_only fun r' hr' => by rw [eq_of_reference (beq_iff_eq.mp hr'), hr]]
        generalize Database.removeEntities _ _ _ = x
        cases x <;> rfl
      · rfl

theorem Provisioned.getD_backing (h : db.Provisioned) (k : Kind) :
    ((db.backing k).getD {}).Provisioned := by
  cases hb : db.backing k with
  | none => rfl
  | some b => exact h k b hb

/-- In a provisioned table a new row meets no rows but those of its own pair. -/
theorem insertBacking_only (hdb : db.Provisioned) (hr : F ⟨c, .ofString k.tag⟩ = true) :
    (db.only F).insertBacking rules k (some c) =
      (db.insertBacking rules k (some c)).map (only F) := by
  have hb := hdb.getD_backing k
  rw [insertBacking, insertBacking, understood_only, ← understood_map]
  congr 1
  simp only [getD_backing_only, isBlocked_only]
  generalize (db.backing k).getD {} = b at hb ⊢
  rw [hb.faults_eq, (hb.keep _).faults_eq, contains_keep hr]
  split_ifs with hblocked htaken
  · rfl
  · rfl
  · have hfree : b.ids.contains c = false := Bool.eq_false_iff.mpr htaken
    rw [BackingTable.keep_add hfree hr]
    exact congrArg Except.ok (setBacking_only k (some (b.add c)))

theorem insertEntity_only (hr : F r = true) :
    (db.only F).insertEntity rules (some r.id) (some r.kind) =
      (db.insertEntity rules (some r.id) (some r.kind)).map (only F) := by
  rw [insertEntity, insertEntity, understood_only, ← understood_map]
  congr 1
  simp only [contains_entities_only hr, isBacked_only hr, isBlocked_only]
  split_ifs with hblocked hkind htaken hbacked
  · rfl
  · rfl
  · rfl
  · rfl
  · have hfree : (db.entities.getD ∅).contains r = false := Bool.eq_false_iff.mpr htaken
    have hinsert : ((db.only F).entities.getD ∅).insert r =
        ((db.entities.getD ∅).insert r).keep F := by
      rw [← Table.insert_keep hfree hr, entities_only]
      cases db.entities <;> rfl
    rw [hinsert]
    rfl

theorem insertSession_only (rules : Rules) (s : SessionRow) (hr : F s.owner = true)
    (hid : ∀ x ∈ db.sessionRows, x.id = s.id → F x.owner = true) :
    (db.only F).insertSession rules (some s.id) (some s.targetId) (some s.targetKind) s.name
        (some s.createdAt) =
      (db.insertSession rules (some s.id) (some s.targetId) (some s.targetKind) s.name
        (some s.createdAt)).map (only F) := by
  have hrows : (db.only F).sessions.getD ∅ = (db.sessions.getD ∅).keep fun x => F x.owner := by
    rw [sessions_only]
    cases db.sessions <;> rfl
  have hcontains : ((db.sessions.getD ∅).keep fun x => F x.owner).contains s.id =
      (db.sessions.getD ∅).contains s.id := Table.contains_keep hid
  obtain ⟨id, targetId, targetKind, name, createdAt⟩ := s
  rw [insertSession, insertSession, understood_only, ← understood_map]
  congr 1
  simp only [hrows, hcontains, hasEntityRow_only hr, isBlocked_only]
  split_ifs with hblocked htaken howned
  · rfl
  · rfl
  · rfl
  · have hfree : (db.sessions.getD ∅).contains id = false := Bool.eq_false_iff.mpr htaken
    have hinsert : ((db.sessions.getD ∅).keep fun x => F x.owner).insert
        ⟨id, targetId, targetKind, name, createdAt⟩ =
        ((db.sessions.getD ∅).insert ⟨id, targetId, targetKind, name, createdAt⟩).keep
          fun x => F x.owner := Table.insert_keep hfree hr
    rw [hinsert]
    rfl

/-! ### Other pairs -/

section Tables

variable {ρ κ : Type} [Ord κ] {key : ρ → κ} {x : Option (Table ρ key)} {p q : ρ → Bool} {a : ρ}

theorem map_keep_keep (h : ∀ r ∈ (x.getD ∅).rows, p r = true → q r = true) :
    (x.map (·.keep q)).map (·.keep p) = x.map (·.keep p) := by
  cases x with
  | none => rfl
  | some t => exact congrArg some (Table.keep_keep_of_imp h)

theorem map_keep_insert [Std.LawfulEqOrd κ] [Std.TransOrd κ]
    (hfree : ∀ r ∈ (x.getD ∅).rows, key r ≠ key a) (ha : p a = false) :
    (x.map (·.insert a)).map (·.keep p) = x.map (·.keep p) := by
  cases x with
  | none => rfl
  | some t =>
      exact congrArg some
        (Table.keep_insert_of_neg (Table.contains_eq_false_iff.mpr hfree) ha)

end Tables

theorem only_setBacking {b : Option BackingTable}
    (h : b.map (·.keep fun id => G ⟨id, .ofString k.tag⟩) =
      (db.backing k).map (·.keep fun id => G ⟨id, .ofString k.tag⟩)) :
    (db.setBacking k b).only G = db.only G := by
  rw [← setBacking_only, h, setBacking_only, setBacking_backing]

theorem only_withoutSessions {q : SessionRow → Bool}
    (h : ∀ s ∈ db.sessionRows, q s = true → G s.owner = false) :
    (db.withoutSessions q).only G = db.only G := by
  have hsessions : (db.sessions.map (·.keep fun s => !q s)).map (·.keep fun s => G s.owner) =
      db.sessions.map (·.keep fun s => G s.owner) := by
    refine map_keep_keep fun s hs hG => ?_
    rw [Bool.not_eq_true', Bool.eq_false_iff]
    intro hq
    rw [h s hs hq] at hG
    cases hG
  simp only [only, withoutSessions, hsessions]

theorem only_withoutEntities {p : EntityRow → Bool} (h : ∀ r, p r = true → G r = false) :
    (db.withoutEntities p).only G = db.only G := by
  have hp (r : EntityRow) (hG : G r = true) : p r = false := by
    rw [Bool.eq_false_iff]
    intro hp
    rw [h r hp] at hG
    cases hG
  have hentities : (db.entities.map (·.keep fun r => !p r)).map (·.keep G) =
      db.entities.map (·.keep G) := map_keep_keep fun r _ hG => by rw [hp r hG]; rfl
  have hsessions : (db.sessions.map
      (·.keep fun s => !(p s.owner && (db.entities.getD ∅).contains s.owner))).map
      (·.keep fun s => G s.owner) = db.sessions.map (·.keep fun s => G s.owner) :=
    map_keep_keep fun s _ hG => by rw [hp s.owner hG]; rfl
  simp only [only, withoutEntities, hentities, hsessions]

theorem only_withoutBacking (hr : G ⟨c, .ofString k.tag⟩ = false) :
    (db.withoutBacking k c).only G = db.only G := by
  rw [withoutBacking, only_withoutEntities fun r h => by rw [eq_of_reference (beq_iff_eq.mp h), hr]]
  refine only_setBacking ?_
  cases db.backing k with
  | none => rfl
  | some b => exact congrArg some (BackingTable.keep_remove_of_neg hr)

theorem only_withBackingRow (hfree : c ∉ db.backingIds k) (hr : G ⟨c, .ofString k.tag⟩ = false) :
    (db.withBackingRow k c).only G = db.only G := by
  refine only_setBacking ?_
  cases hb : db.backing k with
  | none => rfl
  | some b =>
      rw [mem_backingIds hb, Bool.not_eq_true] at hfree
      exact congrArg some (BackingTable.keep_add_of_neg hfree hr)

theorem only_withEntity (hfree : r ∉ db.entityRows) (hr : G r = false) :
    (db.withEntity r).only G = db.only G := by
  have hentities : (db.entities.map (·.insert r)).map (·.keep G) = db.entities.map (·.keep G) := by
    refine map_keep_insert ?_ hr
    rintro r' hr' rfl
    exact hfree hr'
  simp only [only, withEntity, hentities]

theorem only_withSession {s : SessionRow} (hfree : ∀ x ∈ db.sessionRows, x.id ≠ s.id)
    (hr : G s.owner = false) : (db.withSession s).only G = db.only G := by
  have hsessions : (db.sessions.map (·.insert s)).map (·.keep fun s => G s.owner) =
      db.sessions.map (·.keep fun s => G s.owner) := map_keep_insert hfree hr
  simp only [only, withSession, hsessions]

end Database

end OwnershipRegistry
