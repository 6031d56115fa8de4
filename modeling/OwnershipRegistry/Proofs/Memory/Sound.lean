import OwnershipRegistry.Proofs.Memory.Index

/-!
The store in memory through all its operations. The index says of every owner
which sessions it has and has nothing for an owner without sessions, every
session has its entity and every entity its backing record. Where the index is
right, removal by the index is removal by owner.
-/

namespace OwnershipRegistry.MemoryStore

/-- The index agrees with the sessions, and no session is without its entity. -/
structure Indexed (s : MemoryStore) : Prop where
  held : ∀ t id, id ∈ (s.heldBy t).rows ↔ ∃ x ∈ s.sessions.rows, x.target = t ∧ x.id = id
  standing : ∀ h ∈ s.holdings.rows, h.sessions.rows ≠ []
  owned : ∀ x ∈ s.sessions.rows, x.target ∈ s.entities.rows

/-- The index is right and the ownership chain holds. -/
structure Sound (s : MemoryStore) : Prop extends Indexed s where
  backed : ∀ t ∈ s.entities.rows, t.id ∈ (s.backing t.kind).rows

/-- The store after a history of operations, each at its instant. -/
def after (s : MemoryStore) (history : List (Instant × Operation)) : MemoryStore :=
  history.foldl (fun s step => (s.run step.1 step.2).store) s

variable {s s' : MemoryStore} {t t' : Target}

theorem hasBacking_iff : s.hasBacking t = true ↔ t.id ∈ (s.backing t.kind).rows := by
  rw [hasBacking, Table.contains_iff]
  constructor
  · rintro ⟨id, hid, hkey⟩
    rwa [← octets_injective hkey]
  · intro hid
    exact ⟨t.id, hid, rfl⟩

theorem hasEntity_iff : s.hasEntity t = true ↔ t ∈ s.entities.rows := by
  simp [hasEntity, Table.contains_iff]

@[simp] theorem backing_setBacking (s : MemoryStore) (k k' : Kind) (ids : Table String octets) :
    (s.setBacking k ids).backing k' = if k' = k then ids else s.backing k' := by
  cases k <;> cases k' <;> rfl

@[simp] theorem entities_setBacking (s : MemoryStore) (k : Kind) (ids : Table String octets) :
    (s.setBacking k ids).entities = s.entities := by
  cases k <;> rfl

@[simp] theorem sessions_setBacking (s : MemoryStore) (k : Kind) (ids : Table String octets) :
    (s.setBacking k ids).sessions = s.sessions := by
  cases k <;> rfl

@[simp] theorem holdings_setBacking (s : MemoryStore) (k : Kind) (ids : Table String octets) :
    (s.setBacking k ids).holdings = s.holdings := by
  cases k <;> rfl

theorem setBacking_backing (s : MemoryStore) (k : Kind) : s.setBacking k (s.backing k) = s := by
  cases k <;> rfl

/-! ### The index -/

theorem Indexed.filed (h : s.Indexed) : s.Filed := ⟨h.held, h.standing⟩

/-- An owner that is not registered has no sessions. -/
theorem Indexed.heldBy_eq_empty (h : s.Indexed) (ht : t ∉ s.entities.rows) :
    s.heldBy t = ∅ := by
  refine Table.ext (List.eq_nil_iff_forall_not_mem.mpr fun id hid => ?_)
  obtain ⟨x, hx, rfl, -⟩ := (h.held t id).mp hid
  exact ht (h.owned x hx)

theorem Indexed.holdings_erase (h : s.Indexed) (ht : s.heldBy t = ∅) :
    s.holdings.erase t = s.holdings := by
  refine Table.erase_of_contains_eq_false ?_
  rw [← Table.find?_eq_none_iff, Option.eq_none_iff_forall_ne_some]
  intro x hx
  rw [heldBy, hx] at ht
  exact h.standing x (Table.find?_eq_some_iff.mp hx).1 (congrArg Table.rows ht)

/-! ### Removal -/

/-- The store without an entity and its sessions. -/
def without (s : MemoryStore) (t : Target) : MemoryStore :=
  { s with
    entities := s.entities.erase t
    sessions := s.sessions.keep fun x => x.target != t
    holdings := s.holdings.erase t }

theorem Indexed.keep_sessions_eq_self (h : s.Indexed) (ht : t ∉ s.entities.rows) :
    (s.sessions.keep fun x => x.target != t) = s.sessions := by
  refine Table.keep_eq_self fun x hx => ?_
  rw [bne_iff_ne]
  rintro rfl
  exact ht (h.owned x hx)

/-- An entity that is not there has no sessions either. -/
theorem Indexed.without_eq_self (h : s.Indexed) (ht : t ∉ s.entities.rows) : s.without t = s := by
  have habsent : s.entities.contains t = false := by
    rw [← Bool.not_eq_true]
    exact fun hc => ht (hasEntity_iff.mp hc)
  rw [without, Table.erase_of_contains_eq_false habsent, h.keep_sessions_eq_self ht,
    h.holdings_erase (h.heldBy_eq_empty ht)]

/-- Whether an entity is there or not, removing it leaves the store without
it. -/
theorem Indexed.removeEntity_eq (h : s.Indexed) (t : Target) :
    s.removeEntity t = (s.without t, s.hasEntity t, (s.heldBy t).rows) := by
  rw [removeEntity]
  split_ifs with ht
  · rw [without, ht, h.filed.sessionsWithout_heldBy]
  -- an absent entity has no sessions, so the store without it is the store
  · have habsent : t ∉ s.entities.rows := fun hmem => ht (hasEntity_iff.mpr hmem)
    rw [h.without_eq_self habsent, h.heldBy_eq_empty habsent, Bool.eq_false_iff.mpr ht]
    rfl

theorem Indexed.without (h : s.Indexed) (t : Target) : (s.without t).Indexed where
  held := (h.filed.withoutSessions t).held
  standing := (h.filed.withoutSessions t).standing
  owned x hx := by
    obtain ⟨hx, hne⟩ := Table.mem_rows_keep.mp hx
    exact Table.mem_rows_erase.mpr ⟨h.owned x hx, bne_iff_ne.mp hne⟩

theorem Indexed.setBacking (h : s.Indexed) (k : Kind) (ids : Table String octets) :
    (s.setBacking k ids).Indexed := by
  cases k <;> exact ⟨h.held, h.standing, h.owned⟩

theorem Indexed.deleteBacking_eq (h : s.Indexed) (t : Target) :
    (s.deleteBacking t).store =
        (s.setBacking t.kind ((s.backing t.kind).erase (octets t.id))).without t ∧
      (s.deleteBacking t).answer =
        .ok ⟨t, s.hasBacking t, s.hasEntity t, (s.heldBy t).rows⟩ := by
  have hentity : (s.setBacking t.kind ((s.backing t.kind).erase (octets t.id))).hasEntity t =
      s.hasEntity t := by
    rw [hasEntity, entities_setBacking, hasEntity]
  have hheld : (s.setBacking t.kind ((s.backing t.kind).erase (octets t.id))).heldBy t =
      s.heldBy t := by
    rw [heldBy, holdings_setBacking, heldBy]
  rw [MemoryStore.deleteBacking, (h.setBacking _ _).removeEntity_eq]
  simp only [hentity, hheld, and_self]

/-! ### Operations -/

theorem empty_sound : empty.Sound where
  held := empty_filed.held
  standing := empty_filed.standing
  owned x hx := by cases hx
  backed t ht := by cases ht

theorem Sound.insertBacking (h : s.Sound) (t : Target) : (s.insertBacking t).store.Sound := by
  rw [MemoryStore.insertBacking]
  split_ifs with hb
  · exact h
  · refine ⟨h.toIndexed.setBacking _ _, fun t' ht' => ?_⟩
    have hfree : (s.backing t.kind).contains (octets t.id) = false := by
      simpa [hasBacking] using hb
    have hback := h.backed t' (by simpa using ht')
    rw [backing_setBacking]
    split_ifs with hk
    · rw [hk] at hback
      exact (Table.mem_rows_insert hfree).mpr (.inr hback)
    · exact hback

/-- The store whose backing record has gone, without the entity that stood on
it. -/
theorem Sound.deleteBacking (h : s.Sound) (t : Target) : (s.deleteBacking t).store.Sound := by
  have hindexed := h.toIndexed.setBacking t.kind ((s.backing t.kind).erase (octets t.id))
  rw [(h.toIndexed.deleteBacking_eq t).1]
  refine ⟨hindexed.without t, fun t' ht' => ?_⟩
  have hmem : t' ∈ s.entities.rows ∧ t' ≠ t := by
    simpa [MemoryStore.without] using ht'
  obtain ⟨ht', hne⟩ := hmem
  have hback := h.backed t' ht'
  change t'.id ∈ ((s.setBacking t.kind _).backing t'.kind).rows
  rw [backing_setBacking]
  split_ifs with hk
  · rw [Table.mem_rows_erase, ← hk]
    refine ⟨hback, fun hid => hne ?_⟩
    cases t
    cases t'
    obtain rfl := hk
    obtain rfl := octets_injective hid
    rfl
  · exact hback

theorem Sound.without (h : s.Sound) (t : Target) : (s.without t).Sound where
  toIndexed := h.toIndexed.without t
  backed t' ht' := h.backed t' (Table.mem_rows_erase.mp ht').1

theorem Sound.backingDeleted (h : s.Sound) (t : Target) :
    (s.backingDeleted t).store.Sound := by
  rw [MemoryStore.backingDeleted, h.removeEntity_eq]
  exact h.without t

theorem Sound.register (h : s.Sound) (t : Target) : (s.register t).store.Sound := by
  rw [MemoryStore.register]
  split_ifs with ht hb
  · exact h
  · exact h
  · have hfree : s.entities.contains t = false := by simpa [hasEntity] using ht
    have hback : t.id ∈ (s.backing t.kind).rows := hasBacking_iff.mp (by simpa using hb)
    refine ⟨⟨h.held, h.standing, fun x hx => ?_⟩, fun t' ht' => ?_⟩
    · exact (Table.mem_rows_insert hfree).mpr (.inr (h.owned x hx))
    · rcases (Table.mem_rows_insert hfree).mp ht' with rfl | ht'
      · exact hback
      · exact h.backed t' ht'

theorem Sound.createSession (h : s.Sound) (now : Instant) (new : NewSession) :
    (s.createSession now new).store.Sound := by
  have hfiled := h.filed.createSession now new
  revert hfiled
  rw [MemoryStore.createSession]
  split_ifs with ht hid
  · exact fun _ => h
  · exact fun _ => h
  · intro hfiled
    have hentity : new.target ∈ s.entities.rows := hasEntity_iff.mp (by simpa using ht)
    have hfree : s.sessions.contains new.id.key = false := Bool.eq_false_iff.mpr hid
    refine ⟨⟨hfiled.held, hfiled.standing, fun x hx => ?_⟩, h.backed⟩
    rcases (Table.mem_rows_insert hfree).mp hx with rfl | hx
    · exact hentity
    · exact h.owned x hx

theorem Sound.deleteSession (h : s.Sound) (id : SessionId) :
    (s.deleteSession id).store.Sound := by
  have hfiled := h.filed.deleteSession id
  revert hfiled
  rw [MemoryStore.deleteSession]
  split
  · exact fun _ => h
  · intro hfiled
    exact ⟨⟨hfiled.held, hfiled.standing, fun y hy => h.owned y (Table.mem_rows_erase.mp hy).1⟩,
      h.backed⟩

theorem Sound.deleteAllSessions (h : s.Sound) (t : Target) :
    (s.deleteAllSessions t).store.Sound := by
  have hfiled := h.filed.withoutSessions t
  rw [MemoryStore.deleteAllSessions]
  simp only [h.filed.sessionsWithout_heldBy]
  exact ⟨⟨hfiled.held, hfiled.standing, fun x hx => h.owned x (Table.mem_rows_keep.mp hx).1⟩,
    h.backed⟩

/-- Every operation keeps the store sound. -/
theorem Sound.run (h : s.Sound) (now : Instant) (op : Operation) :
    (s.run now op).store.Sound := by
  cases op with
  | insertBacking t => exact h.insertBacking t
  | deleteBacking t => exact h.deleteBacking t
  | backingDeleted t => exact h.backingDeleted t
  | register t => exact h.register t
  | ensureRegistered t =>
      rw [MemoryStore.run, Outcome.store_map, Outcome.store_ensuring]
      exact h.register t
  | createSession new => exact h.createSession now new
  | deleteSession id => exact h.deleteSession id
  | deleteAllSessions t => exact h.deleteAllSessions t
  | backingExists t | lookup t | listEntities | getSession id | listSessions t | verify =>
      exact h

theorem mem_sessions_removeEntity {x : Session}
    (hx : x ∈ (s.removeEntity t).1.sessions.rows) : x ∈ s.sessions.rows := by
  rw [removeEntity] at hx
  split at hx
  · exact (Table.mem_rows_keep.mp hx).1
  · exact hx

/-- A session that is there after an operation was there before or was made by
it. -/
theorem mem_sessions_run {now : Instant} {op : Operation} {x : Session}
    (hx : x ∈ (s.run now op).store.sessions.rows) :
    x ∈ s.sessions.rows ∨ ∃ new, op = .createSession new ∧ x = new.toSession now := by
  cases op with
  | insertBacking t =>
      rw [MemoryStore.run, insertBacking] at hx
      split at hx
      · exact .inl hx
      · exact .inl (sessions_setBacking s _ _ ▸ hx)
  | deleteBacking t => exact .inl (sessions_setBacking s _ _ ▸ mem_sessions_removeEntity hx)
  | backingDeleted t => exact .inl (mem_sessions_removeEntity hx)
  | register t =>
      rw [MemoryStore.run, register] at hx
      split_ifs at hx <;> exact .inl hx
  | ensureRegistered t =>
      rw [MemoryStore.run, Outcome.store_map, Outcome.store_ensuring, register] at hx
      split_ifs at hx <;> exact .inl hx
  | createSession new =>
      rw [MemoryStore.run, createSession] at hx
      split_ifs at hx with howner hid
      · exact .inl hx
      · exact .inl hx
      · rcases Table.mem_place hx with rfl | hx
        · exact .inr ⟨new, rfl, rfl⟩
        · exact .inl hx
  | deleteSession id =>
      rw [MemoryStore.run, deleteSession] at hx
      split at hx
      · exact .inl hx
      · exact .inl (Table.mem_rows_erase.mp hx).1
  | deleteAllSessions t => exact .inl (Table.mem_rows_keep.mp hx).1
  | backingExists t | lookup t | listEntities | getSession id | listSessions t | verify =>
      exact .inl hx

theorem Sound.after (h : s.Sound) (history : List (Instant × Operation)) :
    (s.after history).Sound := by
  induction history generalizing s with
  | nil => exact h
  | cons step history ih => exact ih (h.run step.1 step.2)

/-- A store with a sound chain has nothing to report. -/
theorem Sound.violations_eq_nil (h : s.Sound) : s.violations = [] := by
  have hentities : (s.entities.rows.filter fun t => !s.hasBacking t) = [] := by
    refine List.filter_eq_nil_iff.mpr fun t ht => ?_
    simpa using hasBacking_iff.mpr (h.backed t ht)
  have hsessions : (s.sessions.rows.filter fun x => !s.hasEntity x.target) = [] := by
    refine List.filter_eq_nil_iff.mpr fun x hx => ?_
    simpa using hasEntity_iff.mpr (h.owned x hx)
  rw [violations, hentities, hsessions]
  rfl

end OwnershipRegistry.MemoryStore
