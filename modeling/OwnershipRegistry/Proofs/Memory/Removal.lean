import OwnershipRegistry.Proofs.Memory.Sound
import OwnershipRegistry.Proofs.Removal

/-!
Removals in memory. Every removal succeeds, and all of them lead to the store
without the backing record, its entity and the sessions that the index has for
it.
-/

namespace OwnershipRegistry.MemoryStore

variable {s : MemoryStore} {t : Target}

/-- What a store in memory has of a target. -/
def estate (s : MemoryStore) (t : Target) : Estate where
  backed := s.hasBacking t
  registered := s.hasEntity t
  sessions := (s.sessions.rows.filter fun x => x.target == t).map Session.id

/-- What a removal leaves of the store. -/
def left (s : MemoryStore) (t : Target) : Removal → MemoryStore
  | .deletion => (s.setBacking t.kind ((s.backing t.kind).erase (octets t.id))).without t
  | .notice => s.without t

theorem Indexed.sessions_estate (h : s.Indexed) (t : Target) :
    (s.estate t).sessions = (s.heldBy t).rows := by
  rw [h.filed.heldBy_eq]
  rfl

theorem Indexed.run_removal (h : s.Indexed) (now : Instant) (r : Removal) :
    (s.run now (r.operation t)).answer = .ok (.report ((s.estate t).report t r)) ∧
      (s.run now (r.operation t)).store = s.left t r := by
  cases r with
  | deletion =>
      obtain ⟨hstore, hanswer⟩ := h.deleteBacking_eq t
      rw [Removal.operation, run, Outcome.answer_map, hanswer, Outcome.store_map, hstore,
        Estate.report, h.sessions_estate]
      exact ⟨rfl, rfl⟩
  | notice =>
      rw [Removal.operation, run, backingDeleted, h.removeEntity_eq, Estate.report,
        h.sessions_estate]
      exact ⟨rfl, rfl⟩

/-! ### What removals leave -/

theorem hasEntity_without (s : MemoryStore) (t : Target) : (s.without t).hasEntity t = false := by
  refine Bool.eq_false_iff.mpr fun ht => ?_
  exact (Table.mem_rows_erase.mp (hasEntity_iff.mp ht)).2 rfl

theorem hasBacking_setBacking_erase (s : MemoryStore) (t : Target) :
    (s.setBacking t.kind ((s.backing t.kind).erase (octets t.id))).hasBacking t = false := by
  refine Bool.eq_false_iff.mpr fun ht => ?_
  rw [hasBacking, backing_setBacking, if_pos rfl, Table.contains_erase] at ht
  exact ht.1 rfl

/-- Without the entity and its sessions the rest is there. -/
theorem estate_without (s : MemoryStore) (t : Target) :
    (s.without t).estate t = ⟨s.hasBacking t, false, []⟩ := by
  have hsessions : ((s.without t).sessions.rows.filter fun x => x.target == t) = [] := by
    refine List.filter_eq_nil_iff.mpr fun x hx ht => ?_
    exact bne_iff_ne.mp (Table.mem_rows_keep.mp hx).2 (beq_iff_eq.mp ht)
  rw [estate, hasEntity_without, hsessions]
  rfl

theorem estate_left (s : MemoryStore) (t : Target) (r : Removal) :
    (s.left t r).estate t = (s.estate t).rest r := by
  cases r with
  | deletion =>
      rw [left, estate_without, hasBacking_setBacking_erase]
      rfl
  | notice => exact estate_without s t

theorem setBacking_without (s : MemoryStore) (t : Target) (k : Kind) (ids : Table String octets) :
    (s.without t).setBacking k ids = (s.setBacking k ids).without t := by
  cases k <;> rfl

theorem backing_without (s : MemoryStore) (t : Target) (k : Kind) :
    (s.without t).backing k = s.backing k := by
  cases k <;> rfl

theorem Indexed.without_without (h : s.Indexed) (t : Target) :
    (s.without t).without t = s.without t :=
  (h.without t).without_eq_self fun ht => (Table.mem_rows_erase.mp ht).2 rfl

/-- Without a backing record a deletion does what a notice does. -/
theorem left_deletion_of_hasBacking_eq_false (h : s.hasBacking t = false) :
    s.left t .deletion = s.left t .notice := by
  rw [MemoryStore.left, Table.erase_of_contains_eq_false h, setBacking_backing, MemoryStore.left]

theorem Indexed.left_settled (h : s.Indexed) (t : Target) (r : Removal) :
    (s.left t .deletion).left t r = s.left t .deletion := by
  have hnotice : (s.left t .deletion).left t .notice = s.left t .deletion :=
    (h.setBacking _ _).without_without t
  cases r with
  | deletion =>
      have hgone : (s.left t .deletion).hasBacking t = false :=
        congrArg Estate.backed (estate_left s t .deletion)
      rw [left_deletion_of_hasBacking_eq_false hgone, hnotice]
  | notice => exact hnotice

theorem Indexed.left_absorbed (h : s.Indexed) (t : Target) (r : Removal) :
    (s.left t r).left t .deletion = s.left t .deletion := by
  cases r with
  | deletion => exact h.left_settled t .deletion
  | notice =>
      have hnotice :=
        (h.setBacking t.kind ((s.backing t.kind).erase (octets t.id))).without_without t
      show ((s.without t).setBacking t.kind (((s.without t).backing t.kind).erase _)).without t = _
      rw [backing_without, setBacking_without, hnotice]
      rfl

/-- Removals in a store where the chain holds. -/
theorem removes (t : Target) :
    Removes run (fun _ => True) t Sound (fun s => s.estate t) (fun s => s.left t) where
  answer r h _ := (h.toIndexed.run_removal _ r).1
  store r h _ := (h.toIndexed.run_removal _ r).2
  keeps {s} r h := by
    have hrun := h.run .epoch (r.operation t)
    rwa [(h.toIndexed.run_removal .epoch r).2] at hrun
  remains r _ := estate_left _ t r
  absorbed r h := h.toIndexed.left_absorbed t r
  settled r h := h.toIndexed.left_settled t r

end OwnershipRegistry.MemoryStore
