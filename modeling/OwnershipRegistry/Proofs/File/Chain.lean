import OwnershipRegistry.Proofs.File.Altered

/-!
The ownership chain in the file. An entity stands on the backing record of its
own kind, and a session on its entity. No step breaks the chain where it held: a
new row is looked at before it is added, and whatever goes takes along what hangs
on it. Rows that already hung on nothing stay what they were.
-/

namespace OwnershipRegistry.Database

/-- An entity of one of the kinds, with its backing record. -/
def Backed (db : Database) (r : EntityRow) : Prop :=
  ∃ k : Kind, r.kind = .ofString k.tag ∧ r.id ∈ db.backingIds k

/-- An entity that is there without a backing record. -/
def Unbacked (db : Database) (r : EntityRow) : Prop := r ∈ db.entityRows ∧ ¬db.Backed r

/-- A session that is there without an entity. -/
def Unowned (db : Database) (s : SessionRow) : Prop :=
  s ∈ db.sessionRows ∧ s.owner ∉ db.entityRows

/-- The chain holds: every entity that refers to a backing record finds it, and
every session has its entity. -/
structure Whole (db : Database) : Prop where
  backed : ∀ r ∈ db.entityRows, db.isBacked r = true
  owned : ∀ s ∈ db.sessionRows, s.owner ∈ db.entityRows

variable {db db' : Database} {checked : Bool} {r : EntityRow} {s : SessionRow}

theorem reference_eq_some {k : Kind} {id : Cell} :
    r.reference k = some id ↔ r.kind = .ofString k.tag ∧ r.id = id := by
  simp [EntityRow.reference]

theorem reference_eq_some_ofTarget {t : Target} :
    r.reference t.kind = some (.ofString t.id) ↔ r = .ofTarget t := by
  rw [reference_eq_some]
  constructor
  · rintro ⟨hkind, hid⟩
    cases r
    cases hkind
    cases hid
    rfl
  · rintro rfl
    exact ⟨rfl, rfl⟩

theorem isBacked_iff :
    db.isBacked r = true ↔ ∀ k : Kind, r.kind = .ofString k.tag → r.id ∈ db.backingIds k := by
  rw [isBacked, List.all_eq_true]
  constructor
  · intro h k hk
    have hone := h k (by cases k <;> decide)
    rw [EntityRow.reference, if_pos hk] at hone
    exact any_backing.mp hone
  · intro h k _
    rw [EntityRow.reference]
    by_cases hk : r.kind = .ofString k.tag
    · rw [if_pos hk]
      exact any_backing.mpr (h k hk)
    · rw [if_neg hk]

theorem ofString_tag_injective {k k' : Kind}
    (h : Cell.ofString k.tag = Cell.ofString k'.tag) : k = k' := by
  have htag := Cell.ofString_injective h
  cases k <;> cases k' <;> first | rfl | exact absurd htag (by decide)

theorem backed_iff : db.Backed r ↔ db.isBacked r = true ∧ ∃ k : Kind, r.kind = .ofString k.tag := by
  rw [isBacked_iff]
  constructor
  · rintro ⟨k, hk, hid⟩
    refine ⟨fun k' hk' => ?_, k, hk⟩
    rwa [← ofString_tag_injective (hk.symm.trans hk')]
  · rintro ⟨hall, k, hk⟩
    exact ⟨k, hk, hall k hk⟩

/-! ### One step -/

theorem backingIds_setBacking_empty {k k' : Kind} (h : db.backing k = none) :
    (db.setBacking k (some {})).backingIds k' = db.backingIds k' := by
  rw [backingIds, backing_setBacking, backingIds]
  split_ifs with hk
  · subst hk
    rw [h]
    rfl
  · rfl

theorem entityRows_addTable {m : Migration} (h : db.has m.table = false) :
    (m.addTable db).entityRows = db.entityRows := by
  cases m with
  | addEntities =>
      have he : db.entities = none := by simpa [has, Migration.table] using h
      simp [Migration.addTable, entityRows, he]
  | addSessions => rfl

theorem sessionRows_addTable {m : Migration} (h : db.has m.table = false) :
    (m.addTable db).sessionRows = db.sessionRows := by
  cases m with
  | addEntities => rfl
  | addSessions =>
      have hs : db.sessions = none := by simpa [has, Migration.table] using h
      simp [Migration.addTable, sessionRows, hs]

theorem backingIds_addTable (db : Database) (m : Migration) (k : Kind) :
    (m.addTable db).backingIds k = db.backingIds k := by
  rw [backingIds, backing_addTable, backingIds]

/-- After a step an entity finds its backing record if it is new or found it
before. -/
theorem Altered.isBacked_of_mem (h : Altered checked db db') (hr : r ∈ db'.entityRows)
    (hold : r ∈ db.entityRows → db.isBacked r = true) : db'.isBacked r = true := by
  rw [isBacked_iff] at hold ⊢
  intro k' hk'
  cases h with
  | same => exact hold hr k' hk'
  | backingAdded k id table free =>
      rw [entityRows_withBackingRow] at hr
      exact (mem_backingIds_withBackingRow table free).mpr (.inl (hold hr k' hk'))
  | backingRemoved k id present =>
      rw [entityRows_withoutBacking, List.mem_filter] at hr
      refine mem_backingIds_withoutBacking.mpr ⟨hold hr.1 k' hk', ?_⟩
      rintro rfl hid
      -- an entity that stood on the record has gone with it
      have href : r.reference k' = some id := reference_eq_some.mpr ⟨hk', hid⟩
      simp [href] at hr
  | entityAdded r₀ table listed free backed =>
      rw [backingIds_withEntity]
      rcases (mem_entityRows_withEntity table free).mp hr with rfl | hr
      · exact isBacked_iff.mp backed k' hk'
      · exact hold hr k' hk'
  | entitiesRemoved p =>
      rw [entityRows_withoutEntities, List.mem_filter] at hr
      rw [backingIds_withoutEntities]
      exact hold hr.1 k' hk'
  | sessionAdded s table free owned =>
      rw [backingIds_withSession]
      exact hold hr k' hk'
  | sessionsRemoved p =>
      rw [backingIds_withoutSessions]
      exact hold hr k' hk'
  | backingTableMade k absent =>
      rw [backingIds_setBacking_empty absent]
      rw [entityRows, entities_setBacking] at hr
      exact hold hr k' hk'
  | ledgerMade absent => exact hold hr k' hk'
  | migrated m l now absent listing =>
      have hr : r ∈ (m.addTable db).entityRows := hr
      have hids : r.id ∈ (m.addTable db).backingIds k' := by
        rw [entityRows_addTable absent] at hr
        rw [backingIds_addTable]
        exact hold hr k' hk'
      exact hids
  | forgotten l p listing => exact hold hr k' hk'

/-- After a step a session has its entity if it is new or had it before. -/
theorem Altered.owner_mem (h : Altered checked db db') (hs : s ∈ db'.sessionRows)
    (hold : s ∈ db.sessionRows → s.owner ∈ db.entityRows) : s.owner ∈ db'.entityRows := by
  cases h with
  | same => exact hold hs
  | backingAdded k id table free =>
      rw [sessionRows_withBackingRow] at hs
      rw [entityRows_withBackingRow]
      exact hold hs
  | backingRemoved k id present =>
      obtain ⟨hs, hgone⟩ := mem_sessionRows_withoutBacking.mp hs
      rw [entityRows_withoutBacking, List.mem_filter]
      refine ⟨hold hs, ?_⟩
      -- a session whose entity goes with the record goes too
      simpa using fun href => hgone href (hold hs)
  | entityAdded r table listed free backed =>
      exact (mem_entityRows_withEntity table free).mpr (.inr (hold hs))
  | entitiesRemoved p =>
      obtain ⟨hs, hgone⟩ := mem_sessionRows_withoutEntities.mp hs
      rw [entityRows_withoutEntities, List.mem_filter]
      refine ⟨hold hs, ?_⟩
      simpa using fun hp => hgone hp (hold hs)
  | sessionAdded s₀ table free owned =>
      rw [entityRows_withSession]
      rcases (mem_sessionRows_withSession table free).mp hs with rfl | hs
      · exact owned
      · exact hold hs
  | sessionsRemoved p =>
      rw [sessionRows_withoutSessions, List.mem_filter] at hs
      exact hold hs.1
  | backingTableMade k absent =>
      rw [sessionRows, sessions_setBacking] at hs
      rw [entityRows, entities_setBacking]
      exact hold hs
  | ledgerMade absent => exact hold hs
  | migrated m l now absent listing =>
      have hs : s ∈ (m.addTable db).sessionRows := hs
      have howner : s.owner ∈ (m.addTable db).entityRows := by
        rw [sessionRows_addTable absent] at hs
        rw [entityRows_addTable absent]
        exact hold hs
      exact howner
  | forgotten l p listing => exact hold hs

/-- If kinds are checked, a new entity is of one of the kinds. -/
theorem Altered.listed_of_mem (h : Altered true db db') (hr : r ∈ db'.entityRows)
    (hold : r ∈ db.entityRows → ∃ k : Kind, r.kind = .ofString k.tag) :
    ∃ k : Kind, r.kind = .ofString k.tag := by
  cases h with
  | entityAdded r₀ table listed free backed =>
      rcases (mem_entityRows_withEntity table free).mp hr with rfl | hr
      · exact listed rfl
      · exact hold hr
  | backingAdded k id table free =>
      rw [entityRows_withBackingRow] at hr
      exact hold hr
  | backingRemoved k id present =>
      rw [entityRows_withoutBacking, List.mem_filter] at hr
      exact hold hr.1
  | entitiesRemoved p =>
      rw [entityRows_withoutEntities, List.mem_filter] at hr
      exact hold hr.1
  | backingTableMade k absent =>
      rw [entityRows, entities_setBacking] at hr
      exact hold hr
  | migrated m l now absent listing =>
      have hr : r ∈ (m.addTable db).entityRows := hr
      rw [entityRows_addTable absent] at hr
      exact hold hr
  | same | sessionAdded | sessionsRemoved | ledgerMade | forgotten => exact hold hr

/-- No step leaves an entity without a backing record that was not there without
one before. -/
theorem Altered.unbacked (h : Altered true db db') (hr : db'.Unbacked r) : db.Unbacked r := by
  obtain ⟨hmem, hnot⟩ := hr
  by_contra hold
  have hold : r ∈ db.entityRows → db.Backed r := fun hr => by
    by_contra hb
    exact hold ⟨hr, hb⟩
  refine hnot (backed_iff.mpr ⟨?_, ?_⟩)
  · exact h.isBacked_of_mem hmem fun hr => (backed_iff.mp (hold hr)).1
  · exact h.listed_of_mem hmem fun hr => (backed_iff.mp (hold hr)).2

/-- No step leaves a session without an entity that was not there without one
before. -/
theorem Altered.unowned (h : Altered checked db db') (hs : db'.Unowned s) : db.Unowned s := by
  obtain ⟨hmem, hnot⟩ := hs
  by_contra hold
  refine hnot (h.owner_mem hmem fun hs => ?_)
  by_contra hb
  exact hold ⟨hs, hb⟩

theorem Altered.whole (h : Altered checked db db') (hdb : db.Whole) : db'.Whole where
  backed r hr := h.isBacked_of_mem hr (hdb.backed r)
  owned s hs := h.owner_mem hs (hdb.owned s)

theorem Becomes.whole (h : Becomes checked db db') (hdb : db.Whole) : db'.Whole :=
  h.invariant hdb fun _ _ hp hstep => hstep.whole hp

theorem empty_whole : (empty : Database).Whole where
  backed r hr := by cases hr
  owned s hs := by cases hs

end OwnershipRegistry.Database
