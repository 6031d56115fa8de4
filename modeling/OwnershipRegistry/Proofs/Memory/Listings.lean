import OwnershipRegistry.Proofs.Listings
import OwnershipRegistry.Proofs.Memory.Sound

/-!
Listings of the store in memory. It lists the sessions of an owner by the index and passes
over identifiers without a session, so a listing is whole only because the index has every
session, and under its own owner.
-/

namespace OwnershipRegistry.MemoryStore

/-- The index has a holding for an owner just if the owner has sessions, a holding names
all sessions of its owner and nothing else, and every session is found under its own
identifier. -/
structure IndexAgrees (s : MemoryStore) : Prop where
  owners : ∀ t, (∃ h ∈ s.holdings.rows, h.owner = t) ↔ ∃ x ∈ s.sessions.rows, x.target = t
  named : ∀ h ∈ s.holdings.rows, h.sessions.rows ≠ [] ∧
    ∀ id, id ∈ h.sessions.rows ↔ ∃ x ∈ s.sessions.rows, x.target = h.owner ∧ x.id = id
  keyed : ∀ (id : SessionId) x, s.sessions.find? id.key = some x → x.id = id

variable {s : MemoryStore} {t : Target}

theorem find?_sessions_iff {id : SessionId} {x : Session} :
    s.sessions.find? id.key = some x ↔ x ∈ s.sessions.rows ∧ x.id = id := by
  rw [Table.find?_eq_some_iff]
  exact and_congr_right fun _ => ⟨fun h => SessionId.key_injective h, congrArg SessionId.key⟩

theorem heldBy_of_mem {h : Holding} (hh : h ∈ s.holdings.rows) : s.heldBy h.owner = h.sessions := by
  have hfind : s.holdings.find? h.owner = some h := Table.find?_eq_some_iff.mpr ⟨hh, rfl⟩
  rw [heldBy, hfind]
  rfl

theorem heldBy_of_absent (ht : ¬∃ h ∈ s.holdings.rows, h.owner = t) : s.heldBy t = ∅ := by
  have hfind : s.holdings.find? t = none :=
    Option.eq_none_iff_forall_ne_some.mpr fun h hh =>
      ht ⟨h, (Table.find?_eq_some_iff.mp hh).1, (Table.find?_eq_some_iff.mp hh).2⟩
  rw [heldBy, hfind]
  rfl

theorem filed_iff : s.Filed ↔ s.IndexAgrees := by
  constructor
  · intro h
    have hheld : ∀ g ∈ s.holdings.rows, ∀ id, id ∈ g.sessions.rows ↔
        ∃ x ∈ s.sessions.rows, x.target = g.owner ∧ x.id = id := by
      intro g hg id
      rw [← heldBy_of_mem hg, h.held]
    refine ⟨fun t => ⟨?_, ?_⟩, fun g hg => ⟨h.standing g hg, hheld g hg⟩, fun id x hx =>
      (find?_sessions_iff.mp hx).2⟩
    · rintro ⟨g, hg, rfl⟩
      obtain ⟨id, hid⟩ := List.exists_mem_of_ne_nil _ (h.standing g hg)
      obtain ⟨x, hx, htarget, -⟩ := (hheld g hg id).mp hid
      exact ⟨x, hx, htarget⟩
    · rintro ⟨x, hx, rfl⟩
      by_contra habsent
      have hid := (h.held x.target x.id).mpr ⟨x, hx, rfl, rfl⟩
      rw [heldBy_of_absent habsent] at hid
      cases hid
  · intro h
    refine ⟨fun t id => ?_, fun g hg => (h.named g hg).1⟩
    by_cases howner : ∃ g ∈ s.holdings.rows, g.owner = t
    · obtain ⟨g, hg, rfl⟩ := howner
      rw [heldBy_of_mem hg, (h.named g hg).2]
    · rw [heldBy_of_absent howner]
      refine iff_of_false (by simp) ?_
      rintro ⟨x, hx, htarget, -⟩
      exact howner ((h.owners t).mpr ⟨x, hx, htarget⟩)

theorem empty_indexAgrees : empty.IndexAgrees := filed_iff.mp empty_filed

theorem IndexAgrees.run (h : s.IndexAgrees) (now : Instant) (op : Operation) :
    (s.run now op).store.IndexAgrees :=
  filed_iff.mp ((filed_iff.mpr h).run now op)

theorem IndexAgrees.after (h : s.IndexAgrees) (history : List (Instant × Operation)) :
    (s.after history).IndexAgrees := by
  induction history generalizing s with
  | nil => exact h
  | cons step history ih => exact ih (h.run step.1 step.2)

/-- Where the index is right, every listing is given and is whole. -/
theorem IndexAgrees.listings (h : s.IndexAgrees) (now : Instant) :
    ListingsGiven fun op => some (s.run now op).answer where
  sessionsGiven t := ⟨_, rfl⟩
  entitiesGiven := ⟨_, rfl⟩
  sessions t l hl := by
    have hlisted : s.listSessions t = l := Answer.sessions.inj (Except.ok.inj (Option.some.inj hl))
    rw [← hlisted, (filed_iff.mpr h).listSessions_eq]
    refine ⟨s.sessions.ascending.filter _, fun x => ?_⟩
    rw [List.mem_filter, beq_iff_eq]
    refine and_congr_left fun _ => ?_
    show _ ↔ some (Except.ok (Answer.foundSession (s.sessions.find? x.id.key))) = _
    rw [Option.some.injEq, Except.ok.injEq, Answer.foundSession.injEq, find?_sessions_iff,
      and_iff_left rfl]
  entities l hl := by
    have hlisted : s.entities.rows = l := Answer.entities.inj (Except.ok.inj (Option.some.inj hl))
    rw [← hlisted]
    refine ⟨s.entities.ascending.imp fun hlt => Target.compare_eq_lt_iff.mp hlt, fun t => ?_⟩
    show _ ↔ some (Except.ok (Answer.found (if s.hasEntity t then some t else none))) = _
    rw [Option.some.injEq, Except.ok.injEq, Answer.found.injEq, ← hasEntity_iff]
    split_ifs with ht <;> simp [ht]

end OwnershipRegistry.MemoryStore
