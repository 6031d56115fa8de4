import OwnershipRegistry.Proofs.File.Effect
import OwnershipRegistry.Proofs.File.Ready
import OwnershipRegistry.Proofs.Removal

/-!
What can be deleted from the file. A deletion goes down the chain from the
backing record and a notice from the entity; both need all tables, sessions whose
identifiers are texts, and that nothing they would take is blocked. What a notice
takes a deletion takes as well, so in whatever order they come the file is left
without the record, its entity and its sessions; and a deletion by another
program leaves the same.
-/

namespace OwnershipRegistry

theorem Kind.ofTable_ofKind (k : Kind) : Kind.ofTable (TableName.ofKind k).text = .ok k := by
  cases k <;> decide +kernel

/-- The identifier that is read of a session. -/
def SessionRow.sessionId (r : SessionRow) : SessionId := ⟨(r.id.read 0 "id").toOption.getD ""⟩

namespace Database

variable {db db' : Database} {rules : Rules} {t : Target} {k : Kind} {id : Cell}

/-! ### What stands in the way -/

theorem exists_understood {α : Type} {s : Statement} {f : Except Fault α} :
    (∃ x, db.understood rules s f = .ok x) ↔ db.refusal rules s = none ∧ ∃ x, f = .ok x := by
  simp only [understood_eq_ok, exists_and_left]

theorem refusal_deleteBacking_eq_none (hr : rules.references = true) :
    db.refusal rules (.deleteBacking k) = none ↔ db.has (.ofKind k) = true ∧
      (db.has .entities = true → ∀ k, db.has (.ofKind k) = true) := by
  have hentities : db.outline.entities = .declared ↔ db.has .entities = true :=
    standing_eq_declared
  rw [refusal, Option.map_eq_none_iff, Outline.obstacle, orElse_eq_none, lacking_eq_none,
    if_pos hr, Outline.brokenRemoval, ite_eq_right_iff, hentities, Option.map_eq_none_iff,
    brokenBacking_eq_none]

theorem refusal_deleteEntity_eq_none (hr : rules.references = true) :
    db.refusal rules .deleteEntity = none ↔ db.has .entities = true ∧
      ∀ k, db.has (.ofKind k) = true := by
  rw [refusal, Option.map_eq_none_iff, Outline.obstacle, orElse_eq_none, lacking_eq_none,
    if_pos hr, brokenBacking_eq_none]

/-- Sessions can be removed unless that is blocked and there are some to
remove. -/
theorem exists_removeSessions {p : SessionRow → Bool} :
    (∃ rest, db.removeSessions p = .ok rest) ↔
      ∀ s ∈ db.sessionRows, p s = true → db.isBlocked .sessions .deletion = false := by
  rw [removeSessions, sessionRows]
  cases db.sessions with
  | none => simp
  | some rows =>
      simp only [Except.exists_ok_ite, Except.ok.injEq, exists_eq', and_true, Bool.and_eq_true,
        not_and, List.any_eq_true, Bool.not_eq_true, Option.getD_some, forall_exists_index,
        and_imp]

/-- Entities can be removed unless one of them is blocked from it or one of the
sessions that would go along. -/
theorem exists_removeEntities (hr : rules.references = true) {p : EntityRow → Bool} :
    (∃ rest, db.removeEntities rules p = .ok rest) ↔
      (∀ r ∈ db.entityRows, p r = true → db.isBlocked .entities .deletion = false) ∧
      ∀ s ∈ db.sessionRows, p s.owner = true → s.owner ∈ db.entityRows →
        db.isBlocked .sessions .deletion = false := by
  rw [removeEntities, entityRows]
  cases db.entities with
  | none => simp
  | some rows =>
      have hcontains (r : EntityRow) : rows.contains r = true ↔ r ∈ rows.rows := by
        simp [Table.contains_iff]
      simp only [Except.exists_ok_ite, hr, if_true, exists_removeSessions, Bool.and_eq_true,
        not_and, List.any_eq_true, Bool.not_eq_true, Option.getD_some, forall_exists_index, and_imp,
        hcontains]
      rfl

theorem exists_deleteEntities (hr : rules.references = true) {p : EntityRow → Bool} :
    (∃ x, db.deleteEntities rules p = .ok x) ↔
      (db.has .entities = true ∧ ∀ k, db.has (.ofKind k) = true) ∧
      (∀ r ∈ db.entityRows, p r = true → db.isBlocked .entities .deletion = false) ∧
      ∀ s ∈ db.sessionRows, p s.owner = true → s.owner ∈ db.entityRows →
        db.isBlocked .sessions .deletion = false := by
  rw [deleteEntities, exists_understood, refusal_deleteEntity_eq_none hr, Except.exists_ok_map,
    exists_removeEntities hr]

/-- A backing record that is not there stands in nobody's way. -/
theorem exists_deleteBacking (hr : rules.references = true) :
    (∃ x, db.deleteBacking rules k (some id) = .ok x) ↔
      (db.has (.ofKind k) = true ∧ (db.has .entities = true → ∀ k, db.has (.ofKind k) = true)) ∧
      (id ∈ db.backingIds k → db.isBlocked (.ofKind k) .deletion = false ∧
        (∀ r ∈ db.entityRows, r.reference k = some id →
          db.isBlocked .entities .deletion = false) ∧
        ∀ s ∈ db.sessionRows, s.owner.reference k = some id → s.owner ∈ db.entityRows →
          db.isBlocked .sessions .deletion = false) := by
  rw [Database.deleteBacking, exists_understood, refusal_deleteBacking_eq_none hr]
  refine and_congr_right fun hhas => ?_
  obtain ⟨b, hb⟩ := Option.isSome_iff_exists.mp (has_ofKind db k ▸ hhas.1)
  have hmem : id ∈ db.backingIds k ↔ b.ids.contains id = true := by
    simp [backingIds, hb, Table.contains_iff]
  simp only [hb, Option.getD_some, hmem, Option.filter]
  cases b.ids.contains id with
  | false => simp
  | true =>
      simp only [if_true, Except.exists_ok_ite, hr, Except.exists_ok_map, exists_removeEntities hr,
        isBlocked, blocks_setBacking, entityRows, entities_setBacking, sessionRows,
        sessions_setBacking, Bool.not_eq_true, beq_iff_eq, forall_const]

/-! ### What there is of a target -/

/-- What a store reads in the file of a target. -/
def estate (db : Database) (t : Target) : Estate where
  backed := db.hasBackingRow t.kind (.ofString t.id)
  registered := (db.entities.getD ∅).contains (.ofTarget t)
  sessions := (db.sessionRows.filter fun s => s.owner == .ofTarget t).map SessionRow.sessionId

/-- Nothing that there is of a target is blocked from being deleted. -/
structure Unblocked (db : Database) (t : Target) : Prop where
  record : .ofString t.id ∈ db.backingIds t.kind → db.isBlocked (.ofKind t.kind) .deletion = false
  entity : .ofTarget t ∈ db.entityRows → db.isBlocked .entities .deletion = false
  held : ∀ s ∈ db.sessionRows, s.owner = .ofTarget t → db.isBlocked .sessions .deletion = false

/-- What belongs to a target can be deleted: all tables are there, the
identifiers of its sessions are texts, and none of its rows is blocked. -/
structure Deletable (db : Database) (t : Target) : Prop extends Unblocked db t where
  backing : ∀ k, db.has (.ofKind k) = true
  entities : db.has .entities = true
  sessions : db.has .sessions = true
  legible : ∀ s ∈ db.sessionRows, s.owner = .ofTarget t → ∃ text, s.id = .ofString text

/-- Where the chain holds, nothing is there of a target without a backing
record. -/
theorem Whole.estate_eq_bare (h : db.Whole) (ht : .ofString t.id ∉ db.backingIds t.kind) :
    db.estate t = .bare := by
  have hentity : .ofTarget t ∉ db.entityRows := fun hr =>
    ht (isBacked_iff.mp (h.backed _ hr) t.kind rfl)
  have hsessions : (db.sessionRows.filter fun s => s.owner == .ofTarget t) = [] := by
    refine List.filter_eq_nil_iff.mpr fun s hs howner => hentity ?_
    rw [← beq_iff_eq.mp howner]
    exact h.owned s hs
  have hbacked : db.hasBackingRow t.kind (.ofString t.id) = false :=
    Bool.eq_false_iff.mpr fun hb => ht (any_backing.mp hb)
  have hregistered : (db.entities.getD ∅).contains (.ofTarget t) = false :=
    Bool.eq_false_iff.mpr fun hr => hentity (contains_entities.mp hr)
  rw [estate, hsessions, hbacked, hregistered]
  rfl

theorem sessionId_eq {s : SessionRow} {text : String} (h : s.id = .ofString text) :
    s.sessionId = ⟨text⟩ := by
  rw [SessionRow.sessionId, h, Cell.read_ofString]
  rfl

theorem sessionIdsOf_eq (hs : db.has .sessions = true)
    (hlegible : ∀ s ∈ db.sessionRows, s.owner = .ofTarget t → ∃ text, s.id = .ofString text) :
    db.sessionIdsOf t = .ok (db.estate t).sessions := by
  rw [sessionIdsOf, sessionRowsOf, understood_eq (refusal_readSessions hs), Except.ok_bind]
  refine Except.mapM_eq_ok fun s hmem => ?_
  obtain ⟨hmem, howner⟩ := List.mem_filter.mp hmem
  obtain ⟨text, htext⟩ := hlegible s hmem (beq_iff_eq.mp howner)
  rw [sessionId_eq htext, htext, Cell.read_ofString]
  rfl

theorem exists_sessionIdsOf :
    (∃ ids, db.sessionIdsOf t = .ok ids) ↔ db.has .sessions = true ∧
      ∀ s ∈ db.sessionRows, s.owner = .ofTarget t → ∃ text, s.id = .ofString text := by
  constructor
  · rintro ⟨ids, h⟩
    obtain ⟨rows, hrows, hread⟩ := Except.bind_eq_ok.mp h
    obtain ⟨hu, hrows⟩ := understood_eq_ok.mp hrows
    obtain rfl := Except.ok.inj hrows
    refine ⟨has_of_refusal_eq_none (n := .sessions) rfl hu, fun s hs howner => ?_⟩
    obtain ⟨id, -, hid⟩ :=
      Except.mem_of_mapM_eq_ok hread (List.mem_filter.mpr ⟨hs, beq_iff_eq.mpr howner⟩)
    obtain ⟨text, htext, -⟩ := Except.bind_eq_ok.mp hid
    exact ⟨text, Cell.eq_ofString_of_read htext⟩
  · rintro ⟨hs, hlegible⟩
    exact ⟨_, sessionIdsOf_eq hs hlegible⟩

/-- What is read is the identifiers of the sessions of the target. -/
theorem sessionIdsOf_eq_ok {ids : List SessionId} (h : db.sessionIdsOf t = .ok ids) :
    ids.map (fun id => Cell.ofString id.text) =
      (db.sessionRows.filter fun s => s.owner == .ofTarget t).map SessionRow.id := by
  obtain ⟨hsessions, hlegible⟩ := exists_sessionIdsOf.mp ⟨ids, h⟩
  obtain rfl := Except.ok.inj ((sessionIdsOf_eq hsessions hlegible).symm.trans h)
  rw [estate, List.map_map]
  refine List.map_congr_left fun s hs => ?_
  obtain ⟨hs, howner⟩ := List.mem_filter.mp hs
  obtain ⟨text, htext⟩ := hlegible s hs (beq_iff_eq.mp howner)
  rw [Function.comp_apply, sessionId_eq htext, htext]

/-- Each session of the target is in its estate under its identifier. -/
theorem Deletable.sessions_eq (h : db.Deletable t) :
    (db.estate t).sessions.map (fun id => Cell.ofString id.text) =
      (db.sessionRows.filter fun s => s.owner == .ofTarget t).map SessionRow.id :=
  sessionIdsOf_eq_ok (sessionIdsOf_eq h.sessions h.legible)

/-! ### What removals leave -/

theorem withoutEntities_eq_self {p : EntityRow → Bool} (h : ∀ r ∈ db.entityRows, p r = false) :
    db.withoutEntities p = db := by
  have hentities : db.entities.map (fun rows => rows.keep fun r => !p r) = db.entities := by
    cases he : db.entities with
    | none => rfl
    | some rows =>
        have hkeep : (rows.keep fun r => !p r) = rows := by
          refine Table.keep_eq_self fun r hr => ?_
          have hmem : r ∈ db.entityRows := by
            rw [entityRows, he]
            exact hr
          rw [h r hmem, Bool.not_false]
        rw [Option.map_some, hkeep]
  -- no session goes along
  have hsessions : ∀ s ∈ db.sessionRows,
      (p s.owner && (db.entities.getD ∅).contains s.owner) = false := by
    intro s _
    cases hc : (db.entities.getD ∅).contains s.owner with
    | false => exact Bool.and_false _
    | true => rw [h s.owner (contains_entities.mp hc), Bool.false_and]
  have hrest := withoutSessions_eq_self hsessions
  rw [withoutEntities, hentities]
  exact hrest

theorem withoutEntities_withoutEntities (p : EntityRow → Bool) :
    (db.withoutEntities p).withoutEntities p = db.withoutEntities p := by
  refine withoutEntities_eq_self fun r hr => ?_
  rw [entityRows_withoutEntities, List.mem_filter] at hr
  simpa using hr.2

theorem setBacking_withoutEntities (p : EntityRow → Bool) (k : Kind) (b : Option BackingTable) :
    (db.withoutEntities p).setBacking k b = (db.setBacking k b).withoutEntities p := by
  cases k <;> rfl

/-- A backing record that is not there can be taken away, if no entity refers to
it. -/
theorem withoutBacking_eq_self (hid : id ∉ db.backingIds k)
    (h : ∀ r ∈ db.entityRows, r.reference k ≠ some id) : db.withoutBacking k id = db := by
  have hbacking : (db.backing k).map (·.remove id) = db.backing k := by
    cases hb : db.backing k with
    | none => rfl
    | some b =>
        have hfree : b.rows.contains id = false := by
          rwa [mem_backingIds hb, BackingTable.contains_ids, Bool.not_eq_true] at hid
        rw [Option.map_some, BackingTable.remove, Table.erase_of_contains_eq_false hfree]
  rw [withoutBacking, hbacking, setBacking_backing]
  exact withoutEntities_eq_self fun r hr => beq_eq_false_iff_ne.mpr (h r hr)

theorem withoutBacking_withoutBacking :
    (db.withoutBacking k id).withoutBacking k id = db.withoutBacking k id := by
  refine withoutBacking_eq_self (fun h => ?_) fun r hr => ?_
  · exact (mem_backingIds_withoutBacking.mp h).2 rfl rfl
  · rw [entityRows_withoutBacking, List.mem_filter] at hr
    simpa using hr.2

/-- Entities that refer to a backing record go with it at the latest. -/
theorem withoutBacking_withoutEntities :
    (db.withoutEntities fun r => r.reference k == some id).withoutBacking k id =
      db.withoutBacking k id := by
  rw [withoutBacking, backing_withoutEntities, setBacking_withoutEntities,
    withoutEntities_withoutEntities, withoutBacking]

/-- What a removal leaves of the file. -/
def left (db : Database) (t : Target) : Removal → Database
  | .deletion => db.withoutBacking t.kind (.ofString t.id)
  | .notice => db.withoutEntities (· == .ofTarget t)

theorem left_notice : db.left t .notice =
    db.withoutEntities fun r => r.reference t.kind == some (.ofString t.id) := by
  have htest : (fun r : EntityRow => r.reference t.kind == some (.ofString t.id)) =
      (· == .ofTarget t) := by
    funext r
    rw [Bool.eq_iff_iff, beq_iff_eq, beq_iff_eq, reference_eq_some_ofTarget]
  rw [left, htest]

theorem left_absorbed (r : Removal) : (db.left t r).left t .deletion = db.left t .deletion := by
  cases r with
  | deletion => exact withoutBacking_withoutBacking
  | notice =>
      rw [left_notice]
      exact withoutBacking_withoutEntities

theorem left_settled (r : Removal) : (db.left t .deletion).left t r = db.left t .deletion := by
  cases r with
  | deletion => exact withoutBacking_withoutBacking
  | notice =>
      rw [left_notice]
      exact withoutEntities_withoutEntities _

theorem estate_withoutEntities (howned : ∀ s ∈ db.sessionRows, s.owner ∈ db.entityRows) :
    (db.withoutEntities (· == .ofTarget t)).estate t =
      ⟨db.hasBackingRow t.kind (.ofString t.id), false, []⟩ := by
  have hregistered :
      ((db.withoutEntities (· == .ofTarget t)).entities.getD ∅).contains (.ofTarget t) = false := by
    refine Bool.eq_false_iff.mpr fun hr => ?_
    have hmem := contains_entities.mp hr
    rw [entityRows_withoutEntities, List.mem_filter] at hmem
    simp at hmem
  have hsessions : ((db.withoutEntities (· == .ofTarget t)).sessionRows.filter
      fun s => s.owner == .ofTarget t) = [] := by
    refine List.filter_eq_nil_iff.mpr fun s hs howner => ?_
    obtain ⟨hs, hspared⟩ := mem_sessionRows_withoutEntities.mp hs
    exact hspared howner (howned s hs)
  rw [estate, hasBackingRow, backing_withoutEntities, hregistered, hsessions]
  rfl

/-- Without a backing record there is nothing to delete. -/
theorem Whole.left_deletion_eq_self (h : db.Whole) (ht : .ofString t.id ∉ db.backingIds t.kind) :
    db.left t .deletion = db := by
  refine withoutBacking_eq_self ht fun r hr href => ht ?_
  obtain rfl := reference_eq_some_ofTarget.mp href
  exact isBacked_iff.mp (h.backed _ hr) t.kind rfl

theorem Whole.left (h : db.Whole) (t : Target) (r : Removal) : (db.left t r).Whole := by
  cases r with
  | notice =>
      have haltered : Altered true db (db.left t .notice) := .entitiesRemoved _
      exact haltered.whole h
  | deletion =>
      by_cases ht : .ofString t.id ∈ db.backingIds t.kind
      · have haltered : Altered true db (db.left t .deletion) := .backingRemoved _ _ ht
        exact haltered.whole h
      · rwa [h.left_deletion_eq_self ht]

/-- A removal leaves the rest of what there was of the target. -/
theorem Whole.estate_left (h : db.Whole) (r : Removal) :
    (db.left t r).estate t = (db.estate t).rest r := by
  cases r with
  | notice => exact estate_withoutEntities h.owned
  | deletion =>
      refine (h.left t .deletion).estate_eq_bare fun ht => ?_
      exact (mem_backingIds_withoutBacking.mp ht).2 rfl rfl

theorem sameTables_left (db : Database) (t : Target) (r : Removal) :
    db.SameTables (db.left t r) := by
  cases r with
  | deletion => exact sameTables_withoutBacking _ _ _
  | notice => exact sameTables_withoutEntities _ _

theorem Deletable.mono (h : db.Deletable t) (htables : db.SameTables db')
    (hbacking : ∀ c ∈ db'.backingIds t.kind, c ∈ db.backingIds t.kind)
    (hentities : ∀ r ∈ db'.entityRows, r ∈ db.entityRows)
    (hsessions : ∀ s ∈ db'.sessionRows, s ∈ db.sessionRows) : db'.Deletable t := by
  have hblocked (n : TableName) : db'.isBlocked n .deletion = db.isBlocked n .deletion := by
    rw [isBlocked, htables.blocks, isBlocked]
  refine ⟨⟨fun hr => ?_, fun he => ?_, fun s hs ht => ?_⟩, fun k => ?_, ?_, ?_,
    fun s hs => h.legible s (hsessions s hs)⟩
  · rw [hblocked, h.record (hbacking _ hr)]
  · rw [hblocked, h.entity (hentities _ he)]
  · rw [hblocked, h.held s (hsessions s hs) ht]
  · rw [htables.has, h.backing]
  · rw [htables.has, h.entities]
  · rw [htables.has, h.sessions]

theorem Deletable.left (h : db.Deletable t) (r : Removal) : (db.left t r).Deletable t := by
  refine h.mono (sameTables_left db t r) (fun c hc => ?_) (fun e he => ?_) fun s hs => ?_ <;>
    cases r
  · exact (mem_backingIds_withoutBacking.mp hc).1
  · rwa [Database.left, backingIds_withoutEntities] at hc
  · rw [Database.left, entityRows_withoutBacking, List.mem_filter] at he
    exact he.1
  · rw [Database.left, entityRows_withoutEntities, List.mem_filter] at he
    exact he.1
  · exact (mem_sessionRows_withoutBacking.mp hs).1
  · exact (mem_sessionRows_withoutEntities.mp hs).1

/-- Where the chain holds, what there is of a target stands in the way of its own
deletion alone. -/
theorem Whole.exists_deleteBacking (h : db.Whole) (hr : rules.references = true) :
    (∃ x, db.deleteBacking rules t.kind (some (.ofString t.id)) = .ok x) ↔
      (db.has (.ofKind t.kind) = true ∧
        (db.has .entities = true → ∀ k, db.has (.ofKind k) = true)) ∧ db.Unblocked t := by
  have hbacked : .ofTarget t ∈ db.entityRows → .ofString t.id ∈ db.backingIds t.kind := fun he =>
    isBacked_iff.mp (h.backed _ he) t.kind rfl
  have howned (s : SessionRow) (hs : s ∈ db.sessionRows) (ht : s.owner = .ofTarget t) :
      .ofTarget t ∈ db.entityRows := ht ▸ h.owned s hs
  rw [Database.exists_deleteBacking hr]
  simp only [reference_eq_some_ofTarget]
  refine and_congr_right fun _ => ⟨fun hfree => ⟨fun hb => (hfree hb).1, fun he => ?_,
    fun s hs ht => ?_⟩, fun hfree hb => ⟨hfree.record hb, ?_, ?_⟩⟩
  · exact (hfree (hbacked he)).2.1 _ he rfl
  · have he := howned s hs ht
    exact (hfree (hbacked he)).2.2 s hs ht (ht ▸ he)
  · rintro r hr rfl
    exact hfree.entity hr
  · exact fun s hs ht _ => hfree.held s hs ht

/-! ### Another program -/

/-- Another program that deletes the backing record leaves what a deletion
leaves. -/
theorem change_deleteBacking (hwhole : db.Whole) (h : db.Deletable t)
    (hr : rules.references = true) {table : String} (htable : Kind.ofTable table = .ok t.kind) :
    db.change rules (.deleteBacking table (some (.ofString t.id))) =
      .ok (db.left t .deletion, some (db.estate t).backed.toNat) := by
  obtain ⟨⟨rest, n⟩, hdelete⟩ := (hwhole.exists_deleteBacking hr).mpr
    ⟨⟨h.backing t.kind, fun _ => h.backing⟩, h.toUnblocked⟩
  have hchange : db.change rules (.deleteBacking table (some (.ofString t.id))) =
      .ok (rest, some n) := by
    rw [change, htable, Except.ok_bind, hdelete]
    rfl
  obtain ⟨rfl, rfl, habsent⟩ | ⟨rfl, c, hc, hpresent, rfl⟩ := deleteBacking_eq_ok hr hdelete
  · rw [hchange, hwhole.left_deletion_eq_self (habsent _ rfl),
      hwhole.estate_eq_bare (habsent _ rfl)]
    rfl
  · obtain rfl := Option.some.inj hc
    have hbacked : (db.estate t).backed = true := any_backing.mpr hpresent
    rw [hchange, hbacked]
    rfl

end Database

end OwnershipRegistry
