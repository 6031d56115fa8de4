import OwnershipRegistry.File.Recall
import OwnershipRegistry.Proofs.Independence
import OwnershipRegistry.Proofs.Memory.Sound

/-!
The store in memory by targets. A store falls into what it holds of each target: its
backing record, its entity, its sessions and what the index has for it. Every change
is confined to the targets of its footprint. The sessions that a removal finds by
the index are those of its target, because the index is right.
-/

namespace OwnershipRegistry

namespace MemoryStore

/-- What a store holds of some targets. -/
def only (F : Target → Bool) (s : MemoryStore) : MemoryStore where
  bots := s.bots.keep fun id => F ⟨.bot, id⟩
  users := s.users.keep fun id => F ⟨.user, id⟩
  entities := s.entities.keep F
  sessions := s.sessions.keep fun x => F x.target
  holdings := s.holdings.keep fun h => F h.owner

variable {s : MemoryStore} {F : Target → Bool} {t : Target} {now : Instant} {new : NewSession}
  {id : SessionId}

theorem only_ext {s' : MemoryStore} (F : Target → Bool) (h : s.only F = s'.only F)
    (h' : s.only (fun t => !F t) = s'.only fun t => !F t) : s = s' := by
  cases s
  cases s'
  simp only [only, MemoryStore.mk.injEq] at h h' ⊢
  exact ⟨Table.ext_of_keep _ h.1 h'.1, Table.ext_of_keep _ h.2.1 h'.2.1,
    Table.ext_of_keep _ h.2.2.1 h'.2.2.1, Table.ext_of_keep _ h.2.2.2.1 h'.2.2.2.1,
    Table.ext_of_keep _ h.2.2.2.2 h'.2.2.2.2⟩

/-! ### What is looked at -/

@[simp] theorem backing_only (k : Kind) :
    (s.only F).backing k = (s.backing k).keep fun id => F ⟨k, id⟩ := by
  cases k <;> rfl

theorem hasBacking_only (ht : F t = true) : (s.only F).hasBacking t = s.hasBacking t := by
  rw [hasBacking, backing_only, hasBacking]
  refine Table.contains_keep fun id _ hid => ?_
  rw [octets_injective hid]
  exact ht

theorem hasEntity_only (ht : F t = true) : (s.only F).hasEntity t = s.hasEntity t := by
  refine Table.contains_keep fun t' _ heq => ?_
  obtain rfl : t' = t := heq
  exact ht

theorem heldBy_only (ht : F t = true) : (s.only F).heldBy t = s.heldBy t := by
  have hfind : (s.only F).holdings.find? t = s.holdings.find? t := by
    refine Table.find?_keep_of_imp fun h _ howner => ?_
    rw [howner]
    exact ht
  rw [heldBy, hfind, heldBy]

/-- The sessions with the identifier are all among those of the targets. -/
theorem find?_only (hid : ∀ x ∈ s.sessions.rows, x.id = id → F x.target = true) :
    (s.only F).sessions.find? id.key = s.sessions.find? id.key :=
  Table.find?_keep_of_imp fun x hx hkey => hid x hx (SessionId.key_injective hkey)

theorem contains_only (hid : ∀ x ∈ s.sessions.rows, x.id = id → F x.target = true) :
    (s.only F).sessions.contains id.key = s.sessions.contains id.key :=
  Table.contains_keep fun x hx hkey => hid x hx (SessionId.key_injective hkey)

/-! ### Changes on some targets -/

theorem setBacking_only (k : Kind) (ids : Table String octets) :
    (s.only F).setBacking k (ids.keep fun id => F ⟨k, id⟩) = (s.setBacking k ids).only F := by
  cases k <;> rfl

theorem setHeld_only (ht : F t = true) (ids : Table SessionId SessionId.key) :
    (s.only F).setHeld t ids = (s.setHeld t ids).keep fun h => F h.owner := by
  have herase : (s.only F).holdings.erase t = (s.holdings.erase t).keep fun h => F h.owner :=
    Table.keep_comm _ _ _
  rw [setHeld, setHeld, herase]
  split_ifs
  · rfl
  · exact Table.insert_keep Table.contains_erase_self ht

theorem removeEntity_only (ht : F t = true) :
    (s.only F).removeEntity t = ((s.removeEntity t).1.only F, (s.removeEntity t).2) := by
  rw [removeEntity, removeEntity, hasEntity_only ht, heldBy_only ht]
  split_ifs
  · refine Prod.ext ?_ rfl
    simp only [only, sessionsWithout, Table.erase, Table.keep_comm _ F,
      Table.keep_comm _ fun x : Session => F x.target,
      Table.keep_comm _ fun h : Holding => F h.owner]
  · rfl

theorem insertBacking_only (ht : F t = true) :
    (s.only F).insertBacking t = (s.insertBacking t).onStore (only F) := by
  rw [insertBacking, insertBacking, hasBacking_only ht]
  split_ifs with hbacked
  · rfl
  · have hfree : (s.backing t.kind).contains (octets t.id) = false := Bool.eq_false_iff.mpr hbacked
    rw [backing_only, Table.insert_keep hfree ht, setBacking_only]
    rfl

theorem deleteBacking_only (ht : F t = true) :
    (s.only F).deleteBacking t = (s.deleteBacking t).onStore (only F) := by
  have herase : (s.only F).setBacking t.kind (((s.only F).backing t.kind).erase (octets t.id)) =
      (s.setBacking t.kind ((s.backing t.kind).erase (octets t.id))).only F := by
    rw [← setBacking_only, backing_only, Table.erase, Table.keep_comm]
    rfl
  simp only [deleteBacking, herase, removeEntity_only ht, hasBacking_only ht]
  rfl

theorem backingDeleted_only (ht : F t = true) :
    (s.only F).backingDeleted t = (s.backingDeleted t).onStore (only F) := by
  simp only [backingDeleted, removeEntity_only ht, hasBacking_only ht]
  rfl

theorem register_only (ht : F t = true) :
    (s.only F).register t = (s.register t).onStore (only F) := by
  rw [register, register, hasEntity_only ht, hasBacking_only ht]
  split_ifs with hentity hbacked
  · rfl
  · rfl
  · have hfree : s.entities.contains t = false := Bool.eq_false_iff.mpr hentity
    have hinsert : (s.only F).entities.insert t = (s.entities.insert t).keep F :=
      Table.insert_keep hfree ht
    rw [hinsert]
    rfl

theorem createSession_only (ht : F new.target = true)
    (hid : ∀ x ∈ s.sessions.rows, x.id = new.id → F x.target = true) :
    (s.only F).createSession now new = (s.createSession now new).onStore (only F) := by
  rw [createSession, createSession, hasEntity_only ht, contains_only hid]
  split_ifs with hentity htaken
  · rfl
  · rfl
  · have hfree : s.sessions.contains new.id.key = false := Bool.eq_false_iff.mpr htaken
    have hinsert : (s.only F).sessions.insert (new.toSession now) =
        (s.sessions.insert (new.toSession now)).keep fun x => F x.target :=
      Table.insert_keep hfree ht
    rw [hinsert, setHeld_only ht, heldBy_only ht]
    rfl

theorem deleteSession_only (hid : ∀ x ∈ s.sessions.rows, x.id = id → F x.target = true) :
    (s.only F).deleteSession id = (s.deleteSession id).onStore (only F) := by
  rw [deleteSession, deleteSession, find?_only hid]
  split
  · rfl
  · rename_i x hx
    obtain ⟨hmem, hkey⟩ := Table.find?_eq_some_iff.mp hx
    have ht : F x.target = true := hid x hmem (SessionId.key_injective hkey)
    have herase : (s.only F).sessions.erase id.key =
        (s.sessions.erase id.key).keep fun x => F x.target := Table.keep_comm _ _ _
    rw [setHeld_only ht, heldBy_only ht, herase]
    rfl

theorem deleteAllSessions_only (ht : F t = true) :
    (s.only F).deleteAllSessions t = (s.deleteAllSessions t).onStore (only F) := by
  have hsessions (ids : Table SessionId SessionId.key) : (s.only F).sessionsWithout ids =
      (s.sessionsWithout ids).keep fun x => F x.target := Table.keep_comm _ _ _
  have hholdings : (s.only F).holdings.erase t =
      (s.holdings.erase t).keep fun h => F h.owner := Table.keep_comm _ _ _
  rw [deleteAllSessions, deleteAllSessions]
  simp only [heldBy_only ht, hsessions, hholdings]
  rfl

/-! ### Other targets -/

variable {G : Target → Bool}

theorem only_setBacking {k : Kind} {ids : Table String octets}
    (h : (ids.keep fun id => G ⟨k, id⟩) = (s.backing k).keep fun id => G ⟨k, id⟩) :
    (s.setBacking k ids).only G = s.only G := by
  rw [← setBacking_only, h, setBacking_only, setBacking_backing]

theorem keep_entities_erase (ht : G t = false) :
    (s.entities.erase t).keep G = s.entities.keep G := by
  refine Table.keep_erase_of_neg fun t' _ heq => ?_
  obtain rfl : t' = t := heq
  exact ht

theorem keep_setHeld (ht : G t = false) (ids : Table SessionId SessionId.key) :
    ((s.setHeld t ids).keep fun h => G h.owner) = s.holdings.keep fun h => G h.owner := by
  have herase : ((s.holdings.erase t).keep fun h => G h.owner) =
      s.holdings.keep fun h => G h.owner := by
    refine Table.keep_erase_of_neg fun h _ howner => ?_
    rw [howner, ht]
  rw [setHeld]
  split_ifs
  · exact herase
  · have hinsert : (((s.holdings.erase t).insert ⟨t, ids⟩).keep fun h => G h.owner) =
        (s.holdings.erase t).keep fun h => G h.owner :=
      Table.keep_insert_of_neg Table.contains_erase_self ht
    exact hinsert.trans herase

theorem keep_sessions_ne (ht : G t = false) :
    ((s.sessions.keep fun x => x.target != t).keep fun x => G x.target) =
      s.sessions.keep fun x => G x.target := by
  refine Table.keep_keep_of_imp fun x _ hG => ?_
  exact bne_iff_ne.mpr (ne_of_apply_ne G (by simp [ht, hG]))

theorem only_without (ht : G t = false) : (s.without t).only G = s.only G := by
  have hholdings := keep_setHeld (s := s) ht ∅
  simp only [only, without, keep_entities_erase ht, keep_sessions_ne ht]
  exact congrArg _ hholdings

/-! ### Operations -/

/-- The parts of a store in memory are those of its targets. -/
def parted : Parted MemoryStore Target Instant where
  run s now op := s.run now op
  only := only
  part t := t
  owns s t id := ∃ x ∈ s.sessions.rows, x.target = t ∧ x.id = id

variable {op : Operation}

theorem touches_target (h : op.target? = some t) : parted.Touches s op t := .inl ⟨t, h, rfl⟩

theorem touches_session (h : op.session? = some id) {x : Session} (hx : x ∈ s.sessions.rows)
    (hid : x.id = id) : parted.Touches s op x.target := .inr ⟨id, h, x, hx, rfl, hid⟩

theorem run_only (hop : op.takesLock = true) (hF : ∀ t, parted.Touches s op t → F t = true) :
    (s.only F).run now op = (s.run now op).onStore (only F) := by
  have ht {t : Target} (h : op.target? = some t) : F t = true := hF t (touches_target h)
  have hid {id : SessionId} (h : op.session? = some id) :
      ∀ x ∈ s.sessions.rows, x.id = id → F x.target = true :=
    fun x hx hxid => hF x.target (touches_session h hx hxid)
  cases op with
  | insertBacking t =>
      rw [run, insertBacking_only (ht rfl)]
      rfl
  | deleteBacking t =>
      rw [run, deleteBacking_only (ht rfl)]
      rfl
  | backingDeleted t =>
      rw [run, backingDeleted_only (ht rfl)]
      rfl
  | register t =>
      rw [run, register_only (ht rfl)]
      rfl
  | ensureRegistered t =>
      rw [run, register_only (ht rfl), Outcome.ensuring_onStore]
      rfl
  | createSession new =>
      rw [run, createSession_only (ht rfl) (hid rfl)]
      rfl
  | deleteSession id =>
      rw [run, deleteSession_only (hid rfl)]
      rfl
  | deleteAllSessions t =>
      rw [run, deleteAllSessions_only (ht rfl)]
      rfl
  | backingExists | lookup | listEntities | getSession | listSessions | verify => cases hop

theorem register_other (ht : G t = false) : (s.register t).store.only G = s.only G := by
  rw [register]
  split_ifs with hentity hbacked
  · rfl
  · rfl
  · have hfree : s.entities.contains t = false := Bool.eq_false_iff.mpr hentity
    have hinsert : (s.entities.insert t).keep G = s.entities.keep G :=
      Table.keep_insert_of_neg hfree ht
    simp only [only, hinsert]

/-- Targets outside the footprint keep what they have. -/
theorem Indexed.only_run (h : s.Indexed) (hop : op.takesLock = true)
    (hG : ∀ t, parted.Touches s op t → G t = false) :
    (s.run now op).store.only G = s.only G := by
  have ht {t : Target} (h : op.target? = some t) : G t = false := hG t (touches_target h)
  cases op with
  | insertBacking t =>
      rw [MemoryStore.run, Outcome.store_map, MemoryStore.insertBacking]
      split_ifs with hbacked
      · rfl
      · have hfree : (s.backing t.kind).contains (octets t.id) = false :=
          Bool.eq_false_iff.mpr hbacked
        exact only_setBacking (Table.keep_insert_of_neg hfree (ht rfl))
  | deleteBacking t =>
      rw [MemoryStore.run, Outcome.store_map, (h.deleteBacking_eq t).1, only_without (ht rfl)]
      refine only_setBacking (Table.keep_erase_of_neg fun id _ hid => ?_)
      rw [octets_injective hid]
      exact ht rfl
  | backingDeleted t =>
      rw [MemoryStore.run, Outcome.store_map, MemoryStore.backingDeleted, h.removeEntity_eq]
      exact only_without (ht rfl)
  | register t => exact register_other (ht rfl)
  | ensureRegistered t =>
      rw [MemoryStore.run, Outcome.store_map, Outcome.store_ensuring]
      exact register_other (ht rfl)
  | createSession new =>
      rw [MemoryStore.run, Outcome.store_map, MemoryStore.createSession]
      split_ifs with hentity htaken
      · rfl
      · rfl
      · have hfree : s.sessions.contains new.id.key = false := Bool.eq_false_iff.mpr htaken
        have hinsert : ((s.sessions.insert (new.toSession now)).keep fun x => G x.target) =
            s.sessions.keep fun x => G x.target := Table.keep_insert_of_neg hfree (ht rfl)
        simp only [only, hinsert, keep_setHeld (ht rfl)]
  | deleteSession id =>
      rw [MemoryStore.run, Outcome.store_map, MemoryStore.deleteSession]
      split
      · rfl
      · rename_i x hx
        obtain ⟨hmem, hkey⟩ := Table.find?_eq_some_iff.mp hx
        have howner : G x.target = false :=
          hG _ (touches_session rfl hmem (SessionId.key_injective hkey))
        -- no other session has the identifier
        have herase : ((s.sessions.erase id.key).keep fun x => G x.target) =
            s.sessions.keep fun x => G x.target := by
          refine Table.keep_erase_of_neg fun y hy heq => ?_
          rw [Table.eq_of_key_eq hy hmem (heq.trans hkey.symm), howner]
        simp only [only, herase, keep_setHeld howner]
  | deleteAllSessions t =>
      have hholdings := keep_setHeld (s := s) (ht rfl) ∅
      simp only [MemoryStore.run, Outcome.store_map, MemoryStore.deleteAllSessions, only,
        h.filed.sessionsWithout_heldBy, keep_sessions_ne (ht rfl)]
      exact congrArg _ hholdings
  | backingExists | lookup | listEntities | getSession | listSessions | verify => cases hop

/-- Every change of a store whose index is right is confined to its footprint. -/
theorem confined : parted.Confined (·.takesLock = true) Sound where
  ext F h h' := only_ext F h h'
  run_only _ _ hop hF := run_only hop hF
  only_run _ hs hop hG := hs.toIndexed.only_run hop hG
  owns _ _ := by
    rintro ⟨x, hx, rfl, rfl⟩
    rcases mem_sessions_run hx with hx | ⟨new, rfl, rfl⟩
    · exact .inl ⟨x, hx, rfl, rfl⟩
    · exact .inr rfl
  keeps now op hs := hs.run now op

end MemoryStore

end OwnershipRegistry
