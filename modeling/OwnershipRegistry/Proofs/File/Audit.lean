import OwnershipRegistry.Proofs.File.Chain

/-!
The audit of the file. It is understood where its tables are there, it looks at
the rows that break the ownership chain, and where the chain holds there are
none.
-/

namespace OwnershipRegistry

namespace Database

variable {db : Database} {r : EntityRow} {s : SessionRow}

theorem firstLacking_eq_none {needed : List (TableName × String)}
    (h : ∀ n ∈ needed, db.has n.1 = true) : db.outline.firstLacking needed = none := by
  refine List.findSome?_eq_none_iff.mpr fun n hn => lacking_eq_none.mpr (h n ?_)
  rcases List.mem_append.mp hn with hn | hn
  · exact (List.mem_filter.mp hn).1
  · exact hn

theorem refusal_auditEntities {rules : Rules} (he : db.has .entities = true)
    (hb : ∀ k, db.has (.ofKind k) = true) : db.refusal rules .auditEntities = none := by
  have hbots : db.has .bots = true := hb .bot
  have husers : db.has .users = true := hb .user
  rw [refusal, Option.map_eq_none_iff]
  refine firstLacking_eq_none fun n hn => ?_
  simp only [List.mem_cons, List.not_mem_nil, or_false] at hn
  rcases hn with rfl | rfl | rfl
  · exact he
  · exact hbots
  · exact husers

theorem refusal_auditSessions {rules : Rules} (he : db.has .entities = true)
    (hs : db.has .sessions = true) : db.refusal rules .auditSessions = none := by
  rw [refusal, Option.map_eq_none_iff]
  refine firstLacking_eq_none fun n hn => ?_
  simp only [List.mem_cons, List.not_mem_nil, or_false] at hn
  rcases hn with rfl | rfl
  · exact hs
  · exact he

theorem isOrphan_eq_not_isBacked (db : Database) (r : EntityRow) :
    db.isOrphan r = !db.isBacked r := by
  rw [isOrphan, isBacked, List.not_all_eq_any_not]
  congr 1
  funext k
  rw [EntityRow.reference]
  by_cases hk : r.kind = .ofString k.tag
  · simp [hk]
  · have hne : (r.kind == .ofString k.tag) = false := beq_eq_false_iff_ne.mpr hk
    simp [hk, hne]

/-! ### Rows that break the chain -/

/-- An entity that is there and refers to a backing record that is not. -/
def Orphaned (db : Database) (r : EntityRow) : Prop :=
  r ∈ db.entityRows ∧ ∃ k : Kind, r.kind = .ofString k.tag ∧ r.id ∉ db.backingIds k

def orphanRows (db : Database) : List EntityRow := db.entityRows.filter db.isOrphan

def unownedRows (db : Database) : List SessionRow :=
  db.sessionRows.filter fun s => !(db.entities.getD ∅).contains s.owner

theorem mem_orphanRows : r ∈ db.orphanRows ↔ db.Orphaned r := by
  rw [orphanRows, List.mem_filter, Orphaned, isOrphan_eq_not_isBacked, Bool.not_eq_true',
    ← Bool.not_eq_true, isBacked_iff]
  simp only [Classical.not_forall, exists_prop]

theorem mem_unownedRows : s ∈ db.unownedRows ↔ db.Unowned s := by
  rw [unownedRows, List.mem_filter, Unowned, Bool.not_eq_true', ← Bool.not_eq_true,
    contains_entities]

theorem whole_iff_rows : db.Whole ↔ db.orphanRows = [] ∧ db.unownedRows = [] := by
  simp only [List.eq_nil_iff_forall_not_mem, mem_orphanRows, mem_unownedRows]
  constructor
  · intro h
    refine ⟨fun r ⟨hr, k, hk, hid⟩ => hid ?_, fun s hs => hs.2 (h.owned s hs.1)⟩
    exact isBacked_iff.mp (h.backed r hr) k hk
  · rintro ⟨hentities, hsessions⟩
    refine ⟨fun r hr => isBacked_iff.mpr fun k hk => ?_, fun s hs => ?_⟩
    · by_contra hid
      exact hentities r ⟨hr, k, hk, hid⟩
    · by_contra howner
      exact hsessions s ⟨hs, howner⟩

/-! ### Whole files -/

theorem Whole.orphans_eq (h : db.Whole) (he : db.has .entities = true)
    (hs : db.has .sessions = true) (hb : ∀ k, db.has (.ofKind k) = true) :
    db.orphans = .ok ([], []) := by
  have hentities : ((db.entities.getD ∅).rows.filter db.isOrphan) = [] :=
    (whole_iff_rows.mp h).1
  have hsessions : ((db.sessions.getD ∅).rows.filter fun s =>
      !(db.entities.getD ∅).contains s.owner) = [] := (whole_iff_rows.mp h).2
  rw [orphans, orphanEntities, orphanSessions, understood, refusal_auditEntities he hb,
    understood, refusal_auditSessions he hs, hentities, hsessions]
  rfl

end Database

namespace FileStore

/-- The audit of a file whose chain holds finds nothing. -/
theorem run_verify_of_whole {a : Access} {db : Database} (now : Instant) (h : db.Whole)
    (ha : a.reads = true) (he : db.has .entities = true) (hs : db.has .sessions = true)
    (hb : ∀ k, db.has (.ofKind k) = true) :
    (run a now db .verify).answer = .ok (.violations []) := by
  have hread : a.read db Database.orphans = .ok ([], []) := by
    rw [Access.read, ha, h.orphans_eq he hs hb]
    rfl
  rw [run, reading, hread]
  rfl

end FileStore

end OwnershipRegistry
