import OwnershipRegistry.MemoryStore
import OwnershipRegistry.Proofs.Outcome
import OwnershipRegistry.Proofs.Table

/-!
The index of the store in memory. It names for every owner the sessions that the owner
has, and has nothing for an owner without sessions. Where that is so, removal by the index
is removal by owner, and every operation leaves it so.
-/

namespace OwnershipRegistry.MemoryStore

/-- The index agrees with the sessions. -/
structure Filed (s : MemoryStore) : Prop where
  held : ∀ t id, id ∈ (s.heldBy t).rows ↔ ∃ x ∈ s.sessions.rows, x.target = t ∧ x.id = id
  standing : ∀ h ∈ s.holdings.rows, h.sessions.rows ≠ []

variable {s s' : MemoryStore} {t t' : Target}

/-! ### What an owner holds -/

/-- Setting what an owner holds sets that alone. -/
theorem heldBy_of_setHeld {ids : Table SessionId SessionId.key}
    (h : s'.holdings = s.setHeld t ids) :
    s'.heldBy t' = if t' = t then ids else s.heldBy t' := by
  have hgone : (s.holdings.erase t).contains t = false := by
    rw [← Bool.not_eq_true, Table.contains_erase]
    exact fun hc => hc.1 rfl
  rw [heldBy, h, setHeld, heldBy]
  split_ifs with hids ht ht
  · subst ht
    rw [Table.find?_erase, if_pos rfl]
    exact Table.ext (List.isEmpty_iff.mp hids).symm
  · rw [Table.find?_erase, if_neg ht]
  · subst ht
    rw [Table.find?_insert hgone, if_pos rfl]
    rfl
  · rw [Table.find?_insert hgone, if_neg ht, Table.find?_erase, if_neg ht]

theorem heldBy_of_erase (h : s'.holdings = s.holdings.erase t) :
    s'.heldBy t' = if t' = t then ∅ else s.heldBy t' :=
  heldBy_of_setHeld (show s'.holdings = s.setHeld t ∅ from h)

theorem standing_setHeld {ids : Table SessionId SessionId.key}
    (h : ∀ x ∈ s.holdings.rows, x.sessions.rows ≠ []) :
    ∀ x ∈ (s.setHeld t ids).rows, x.sessions.rows ≠ [] := by
  have hgone : (s.holdings.erase t).contains t = false := by
    rw [← Bool.not_eq_true, Table.contains_erase]
    exact fun hc => hc.1 rfl
  intro x hx
  rw [setHeld] at hx
  split_ifs at hx with hids
  · exact h x (Table.mem_rows_erase.mp hx).1
  · rcases (Table.mem_rows_insert hgone).mp hx with rfl | hx
    · exact fun hnil => hids (List.isEmpty_iff.mpr hnil)
    · exact h x (Table.mem_rows_erase.mp hx).1

theorem compare_session_id (x y : Session) :
    compare x.id.key y.id.key = compare x.key y.key := rfl

/-- What the index has for an owner are the identifiers of its sessions. -/
theorem Filed.heldBy_eq (h : s.Filed) (t : Target) :
    s.heldBy t =
      (s.sessions.keep fun x => x.target == t).map Session.id compare_session_id := by
  refine Table.ext_of_mem fun id => ?_
  rw [h.held, Table.rows_map, List.mem_map]
  simp only [Table.mem_rows_keep, beq_iff_eq, and_assoc]

theorem Filed.contains_heldBy (h : s.Filed) {x : Session} (hx : x ∈ s.sessions.rows) :
    (s.heldBy t).contains x.key = (x.target == t) := by
  rw [Bool.eq_iff_iff, Table.contains_iff, beq_iff_eq]
  constructor
  · rintro ⟨id, hid, hkey⟩
    obtain ⟨y, hy, rfl, rfl⟩ := (h.held t id).mp hid
    rw [Table.eq_of_key_eq hx hy hkey.symm]
  · rintro rfl
    exact ⟨x.id, (h.held _ _).mpr ⟨x, hx, rfl, rfl⟩, rfl⟩

/-- Removal by the index is removal by owner. -/
theorem Filed.sessionsWithout_heldBy (h : s.Filed) (t : Target) :
    s.sessionsWithout (s.heldBy t) = s.sessions.keep fun x => x.target != t := by
  refine Table.keep_congr fun x hx => ?_
  rw [h.contains_heldBy hx]
  rfl

theorem Filed.listSessions_eq (h : s.Filed) (t : Target) :
    s.listSessions t = s.sessions.rows.filter fun x => x.target == t := by
  rw [listSessions, h.heldBy_eq, Table.rows_map, Table.rows_keep, List.filterMap_map]
  exact Table.filterMap_find? fun x hx => (List.mem_filter.mp hx).1

/-! ### Operations -/

theorem empty_filed : empty.Filed where
  held t id := by simp [empty, heldBy, Table.find?]
  standing h hh := by cases hh

theorem Filed.withoutSessions (h : s.Filed) (t : Target) :
    Filed { s with
      sessions := s.sessions.keep fun x => x.target != t
      holdings := s.holdings.erase t } where
  held t' id := by
    rw [heldBy_of_erase rfl]
    simp only [Table.mem_rows_keep, bne_iff_ne]
    split_ifs with ht
    · subst ht
      constructor
      · intro hid
        cases hid
      · rintro ⟨x, ⟨-, hne⟩, heq, -⟩
        exact absurd heq hne
    · rw [h.held]
      constructor
      · rintro ⟨x, hx, rfl, hid⟩
        exact ⟨x, ⟨hx, ht⟩, rfl, hid⟩
      · rintro ⟨x, ⟨hx, -⟩, heq, hid⟩
        exact ⟨x, hx, heq, hid⟩
  standing x hx := h.standing x (Table.mem_rows_erase.mp hx).1

theorem Filed.setBacking (h : s.Filed) (k : Kind) (ids : Table String octets) :
    (s.setBacking k ids).Filed := by
  cases k <;> exact ⟨h.held, h.standing⟩

theorem Filed.insertBacking (h : s.Filed) (t : Target) : (s.insertBacking t).store.Filed := by
  rw [MemoryStore.insertBacking]
  split_ifs
  · exact h
  · exact h.setBacking _ _

theorem Filed.removeEntity (h : s.Filed) (t : Target) : (s.removeEntity t).1.Filed := by
  rw [MemoryStore.removeEntity]
  split_ifs
  · rw [h.sessionsWithout_heldBy]
    exact ⟨(h.withoutSessions t).held, (h.withoutSessions t).standing⟩
  · exact h

theorem Filed.register (h : s.Filed) (t : Target) : (s.register t).store.Filed := by
  rw [MemoryStore.register]
  split_ifs
  · exact h
  · exact h
  · exact ⟨h.held, h.standing⟩

theorem Filed.createSession (h : s.Filed) (now : Instant) (new : NewSession) :
    (s.createSession now new).store.Filed := by
  rw [MemoryStore.createSession]
  split_ifs with ht hid
  · exact h
  · exact h
  · have hfree : s.sessions.contains new.id.key = false := Bool.eq_false_iff.mpr hid
    -- an identifier that no session has is nowhere in the index either
    have hunheld : (s.heldBy new.target).contains new.id.key = false := by
      rw [Table.contains_eq_false_iff]
      intro id hid' hkey
      obtain ⟨x, hx, -, rfl⟩ := (h.held _ _).mp hid'
      exact Table.contains_eq_false_iff.mp hfree x hx hkey
    have hmem (x : Session) : x ∈ (s.sessions.insert (new.toSession now)).rows ↔
        x = new.toSession now ∨ x ∈ s.sessions.rows := Table.mem_rows_insert hfree
    refine ⟨fun t id => ?_, standing_setHeld h.standing⟩
    rw [heldBy_of_setHeld rfl]
    simp only [hmem, or_and_right, exists_or, exists_eq_left]
    split_ifs with ht
    · subst ht
      rw [Table.mem_rows_insert hunheld, h.held]
      simp [NewSession.toSession, eq_comm]
    · rw [h.held]
      simp [NewSession.toSession, Ne.symm ht]

theorem Filed.deleteSession (h : s.Filed) (id : SessionId) :
    (s.deleteSession id).store.Filed := by
  rw [MemoryStore.deleteSession]
  split
  · exact h
  · rename_i x hx
    obtain ⟨hmem, hkey⟩ := Table.find?_eq_some_iff.mp hx
    obtain rfl : x.id = id := SessionId.key_injective hkey
    -- other owners keep what they had: the identifier is that of one session alone
    have hrest (y : Session) : y ∈ (s.sessions.erase x.id.key).rows ↔
        y ∈ s.sessions.rows ∧ y.id ≠ x.id := by
      rw [Table.mem_rows_erase]
      exact and_congr_right fun _ => not_congr ⟨fun h => SessionId.key_injective h, congrArg _⟩
    refine ⟨fun t id => ?_, standing_setHeld h.standing⟩
    rw [heldBy_of_setHeld rfl]
    simp only [hrest]
    split_ifs with ht
    · subst ht
      rw [Table.mem_rows_erase, h.held]
      constructor
      · rintro ⟨⟨y, hy, htarget, rfl⟩, hne⟩
        exact ⟨y, ⟨hy, fun heq => hne (congrArg _ heq)⟩, htarget, rfl⟩
      · rintro ⟨y, ⟨hy, hne⟩, htarget, rfl⟩
        exact ⟨⟨y, hy, htarget, rfl⟩, fun heq => hne (SessionId.key_injective heq)⟩
    · rw [h.held]
      constructor
      · rintro ⟨y, hy, rfl, rfl⟩
        refine ⟨y, ⟨hy, fun heq => ht ?_⟩, rfl, rfl⟩
        rw [Table.eq_of_key_eq hy hmem (congrArg SessionId.key heq)]
      · rintro ⟨y, ⟨hy, -⟩, htarget, hid⟩
        exact ⟨y, hy, htarget, hid⟩

theorem Filed.deleteAllSessions (h : s.Filed) (t : Target) :
    (s.deleteAllSessions t).store.Filed := by
  rw [MemoryStore.deleteAllSessions]
  simp only [h.sessionsWithout_heldBy]
  exact h.withoutSessions t

/-- Every operation leaves the index right. -/
theorem Filed.run (h : s.Filed) (now : Instant) (op : Operation) : (s.run now op).store.Filed := by
  cases op with
  | insertBacking t => exact h.insertBacking t
  | deleteBacking t => exact (h.setBacking _ _).removeEntity t
  | backingDeleted t => exact h.removeEntity t
  | register t => exact h.register t
  | ensureRegistered t =>
      rw [MemoryStore.run, Outcome.store_map, Outcome.store_ensuring]
      exact h.register t
  | createSession new => exact h.createSession now new
  | deleteSession id => exact h.deleteSession id
  | deleteAllSessions t => exact h.deleteAllSessions t
  | backingExists t | lookup t | listEntities | getSession id | listSessions t | verify =>
      exact h

end OwnershipRegistry.MemoryStore
