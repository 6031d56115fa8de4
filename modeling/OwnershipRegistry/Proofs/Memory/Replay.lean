import OwnershipRegistry.Proofs.File.Agreement
import OwnershipRegistry.Proofs.File.Replay
import OwnershipRegistry.Proofs.Memory.Accounts

/-!
The log of a store in memory. Beside the image of the store on the file every
operation logs the same in both, only that the file announces a registration
before it tries it. So what the log of the file leads to, that of memory leads to
as well.
-/

namespace OwnershipRegistry.MemoryStore

/-- What a store in memory holds. -/
def roll (s : MemoryStore) : Roll :=
  ⟨s.bots, s.users, s.entities, s.sessions.map Session.member compare_member⟩

/-- The log of a history of operations, each at its instant. -/
def log (s : MemoryStore) : List (Instant × Operation) → List Event
  | [] => []
  | step :: history =>
    (s.run step.1 step.2).events ++ (s.run step.1 step.2).store.log history

variable {s : MemoryStore} {l : Option Ledger} {a : Access} {t : Target} {now : Instant}

theorem onFile_enrolls (s : MemoryStore) (l : Option Ledger) :
    (s.onFile l).Enrolls s.census s.roll where
  shows := ⟨rfl, rfl⟩
  backing k := by
    rw [backing_onFile, Option.getD_some, BackingTable.ids_holding]
    cases k <;> rfl
  entities := rfl
  sessions := rfl

/-! ### The same events -/

theorem insertBacking_events (ha : a.Writes) :
    (FileStore.insertBacking a (s.onFile l) t).events = (s.insertBacking t).events := by
  rw [FileStore.insertBacking_eq ha (s.onFile_ready l), hasBackingRow_onFile, insertBacking]
  split_ifs <;> rfl

/-- A deletion is logged where a backing record went; in memory, where anything
did. -/
theorem Sound.deleteBacking_events (h : s.Sound) (ha : a.Writes) :
    (FileStore.deleteBacking a (s.onFile l) t).events = (s.deleteBacking t).events := by
  have hentity : (s.setBacking t.kind ((s.backing t.kind).erase (octets t.id))).hasEntity t =
      s.hasEntity t := by
    rw [hasEntity, entities_setBacking, hasEntity]
  have hheld : (s.setBacking t.kind ((s.backing t.kind).erase (octets t.id))).heldBy t =
      s.heldBy t := by
    rw [heldBy, holdings_setBacking, heldBy]
  rw [FileStore.deleteBacking_eq ha (s.onFile_ready l) (sessionIdsOf_onFile h.toIndexed),
    hasBackingRow_onFile, contains_entities_onFile, MemoryStore.deleteBacking,
    (h.toIndexed.setBacking _ _).removeEntity_eq, hentity, hheld]
  by_cases hb : s.hasBacking t = true
  · rw [if_pos hb, hb]
    rfl
  · have habsent : t ∉ s.entities.rows := fun ht => hb (hasBacking_iff.mpr (h.backed t ht))
    have hnone : s.hasEntity t = false :=
      Bool.eq_false_iff.mpr fun ht => habsent (hasEntity_iff.mp ht)
    rw [if_neg hb, Bool.eq_false_iff.mpr hb, hnone, h.heldBy_eq_empty habsent]
    rfl

theorem Sound.backingDeleted_events (h : s.Sound) (ha : a.Writes) :
    (FileStore.backingDeleted a (s.onFile l) t).events = (s.backingDeleted t).events := by
  have hready := s.onFile_ready l
  obtain ⟨-, hanswer⟩ := FileStore.backingDeleted_eq (t := t) ha hready
    (sessionIdsOf_onFile h.toIndexed)
  rw [FileStore.backingDeleted, Outcome.events_after, FileStore.events_writing_of_ok hanswer,
    hready.backingPresent_eq, hasBackingRow_onFile, ha.begins, contains_entities_onFile,
    MemoryStore.backingDeleted, h.removeEntity_eq]
  cases s.hasBacking t <;> rfl

theorem register_events (ha : a.Writes) :
    (FileStore.register a (s.onFile l) t).events = .registering t :: (s.register t).events := by
  rw [FileStore.register_eq ha (s.onFile_ready l), contains_entities_onFile, hasBackingRow_onFile,
    register]
  cases s.hasEntity t <;> cases s.hasBacking t <;> rfl

/-- A new session that is refused is not logged, on whatever ground. -/
theorem createSession_events (ha : a.Writes) (now : Instant) (new : NewSession) :
    (FileStore.createSession a now (s.onFile l) new).events =
      (s.createSession now new).events := by
  have hready := s.onFile_ready l
  rw [FileStore.createSession_eq ha hready.sessions hready.entities
    (hready.isBlocked_eq_false _ _), contains_sessions_onFile, hasEntityRow_onFile, createSession]
  cases s.sessions.contains new.id.key <;> cases s.hasEntity new.target <;> rfl

theorem deleteSession_events (ha : a.Writes) (id : SessionId) :
    (FileStore.deleteSession a (s.onFile l) id).events = (s.deleteSession id).events := by
  rw [FileStore.deleteSession_eq ha (s.onFile_ready l), contains_sessions_onFile, deleteSession]
  cases hx : s.sessions.find? id.key with
  | none =>
      rw [Table.find?_eq_none_iff.mp hx]
      rfl
  | some x =>
      have hyes : s.sessions.contains id.key = true := by
        rw [← Bool.not_eq_false, ← Table.find?_eq_none_iff, hx]
        exact Option.some_ne_none x
      rw [if_pos hyes]

theorem Sound.deleteAllSessions_events (h : s.Sound) (ha : a.Writes) :
    (FileStore.deleteAllSessions a (s.onFile l) t).events = (s.deleteAllSessions t).events := by
  have hcount : (s.onFile l).sessionRows.countP (·.owner == .ofTarget t) = (s.heldBy t).size := by
    rw [sessionRows_onFile, List.countP_map, h.filed.heldBy_eq, Table.size_map, Table.size,
      Table.rows_keep, ← List.countP_eq_length_filter]
    exact List.countP_congr fun x _ => by simp only [Function.comp_apply, owner_beq_ofTarget]
  rw [FileStore.deleteAllSessions_eq ha (s.onFile_ready l), hcount]
  rfl

theorem reading_events {α : Type} (ha : a.reads = true) {f : Database → Except Fault α} {x : α}
    (hf : f (s.onFile l) = .ok x) : (FileStore.reading a (s.onFile l) f).events = [] := by
  rw [FileStore.reading_of_ok ha hf]

/-- Every operation logs on the image of a store what it logs in memory, after the
announcement of a registration. -/
theorem Sound.run_events (h : s.Sound) (ha : a.Writes) (hr : a.reads = true) (now : Instant)
    (op : Operation) :
    (FileStore.run a now (s.onFile l) op).events = op.announcement ++ (s.run now op).events := by
  have hready := s.onFile_ready l
  cases op with
  | insertBacking t => exact insertBacking_events ha
  | deleteBacking t => exact h.deleteBacking_events ha
  | backingDeleted t => exact h.backingDeleted_events ha
  | register t => exact register_events ha
  | ensureRegistered t =>
      simp only [FileStore.run, MemoryStore.run, Outcome.events_map, Outcome.events_ensuring]
      exact register_events ha
  | createSession new => exact createSession_events ha now new
  | deleteSession id => exact deleteSession_events ha id
  | deleteAllSessions t => exact h.deleteAllSessions_events ha
  | backingExists t => exact reading_events hr (hready.backingPresent_eq t)
  | lookup t => exact reading_events hr (hready.entityPresent_eq t)
  | listEntities => exact reading_events hr entityTexts_onFile
  | getSession id => exact reading_events hr (sessionText?_onFile id)
  | listSessions t => exact reading_events hr sessionTextsOf_onFile
  | verify =>
      exact reading_events hr
        (h.whole_onFile.orphans_eq hready.entities hready.sessions hready.backing)

/-- Every operation leaves the image of what it leaves in memory. -/
theorem Sound.run_onFile (h : s.Sound) (ha : a.Writes) (now : Instant) (op : Operation) :
    (FileStore.run a now (s.onFile l) op).store = (s.run now op).store.onFile l := by
  cases op with
  | insertBacking t => exact Outcome.Mirrors.store (insertBacking_mirrors ha)
  | deleteBacking t => exact Outcome.Mirrors.store (h.deleteBacking_mirrors ha)
  | backingDeleted t => exact Outcome.Mirrors.store (h.backingDeleted_mirrors ha)
  | register t => exact (register_mirrors ha).2
  | ensureRegistered t =>
      simp only [FileStore.run, MemoryStore.run, Outcome.store_map, Outcome.store_ensuring]
      exact (register_mirrors ha).2
  | createSession new =>
      by_cases hboth : s.IsDoublyRefused (.createSession new)
      · obtain ⟨hmemory, hfile⟩ := run_of_isDoublyRefused (l := l) ha now hboth
        rw [hmemory, hfile]
        rfl
      · exact Outcome.Mirrors.store (createSession_mirrors ha hboth)
  | deleteSession id => exact Outcome.Mirrors.store (deleteSession_mirrors ha id)
  | deleteAllSessions t => exact Outcome.Mirrors.store (h.deleteAllSessions_mirrors ha)
  | backingExists t | lookup t | listEntities | getSession id | listSessions t | verify => rfl

/-! ### Where the log leads -/

theorem records_announcement (op : Operation) : records op.announcement = [] := by
  cases op <;> rfl

/-- An operation that fails in memory logs nothing. -/
theorem run_events_of_error {op : Operation} {e : RegistryError}
    (h : (s.run now op).answer = .error e) : (s.run now op).events = [] := by
  have hregister {t : Target} (h : (s.register t).answer = .error e) :
      (s.register t).events = [] := by
    rw [register] at h ⊢
    split_ifs at h ⊢
    · rfl
    · rfl
  cases op with
  | register t => exact hregister (Except.map_eq_error.mp h)
  | ensureRegistered t =>
      rw [run, Outcome.events_map, Outcome.events_ensuring]
      exact hregister (Outcome.answer_ensuring_eq_error.mp (Except.map_eq_error.mp h)).1
  | createSession new =>
      rw [run, Outcome.answer_map, createSession] at h
      rw [run, Outcome.events_map, createSession]
      split_ifs at h ⊢
      · rfl
      · rfl
      · cases h
  | deleteSession id =>
      rw [run, Outcome.answer_map, deleteSession] at h
      rw [run, Outcome.events_map, deleteSession]
      split at h
      · rfl
      · cases h
  | insertBacking t =>
      rw [run, Outcome.answer_map, insertBacking] at h
      split at h <;> cases h
  | deleteBacking t | backingDeleted t | deleteAllSessions t | backingExists t | lookup t
  | listEntities | getSession id | listSessions t | verify => cases h

theorem Sound.run_leads (h : s.Sound) (now : Instant) (op : Operation) :
    Leads (s.run now op).events s.roll (s.run now op).store.roll := by
  have hstore := h.run_onFile (l := none) Access.free_writes now op
  have hevents := h.run_events (l := none) Access.free_writes rfl now op
  obtain ⟨c, r, hroll, hleads⟩ :=
    FileStore.run_leads (h.whole_onFile (l := none)) (s.onFile_enrolls none) .free now op
  rw [hstore] at hroll
  obtain rfl := hroll.lists.unique (onFile_enrolls _ none).lists
  have hrecords : records (FileStore.run .free now (s.onFile none) op).events =
      records (s.run now op).events := by
    rw [hevents, records_append, records_announcement, List.nil_append]
  exact ⟨hrecords ▸ hleads.replay, hrecords ▸ hleads.counts⟩

/-- The log of every history leads to what the store holds after it. -/
theorem Sound.log_leads (h : s.Sound) (history : List (Instant × Operation)) :
    Leads (s.log history) s.roll (s.after history).roll := by
  induction history generalizing s with
  | nil => exact .nil s.roll
  | cons step history ih => exact (h.run_leads step.1 step.2).append (ih (h.run step.1 step.2))

end OwnershipRegistry.MemoryStore
