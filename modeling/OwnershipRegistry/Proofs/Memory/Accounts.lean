import OwnershipRegistry.Proofs.Accounts
import OwnershipRegistry.Proofs.Memory.Sound

/-!
The store in memory as a registry that keeps a census. The census of a store is
its entities and its sessions; by its index the store finds exactly the sessions
that the census has for a target.
-/

namespace OwnershipRegistry.MemoryStore

def census (s : MemoryStore) : Census := ⟨s.entities, s.sessions⟩

/-- A store in memory, which does nothing between calls. -/
def registry : Registry MemoryStore where
  start s := s = .empty
  idle _ _ := False
  call s e s' := ∃ op : Operation, e.call = op.work ∧ (s.run e.now op.work).answer = e.answer ∧
    (s.run e.now op).store = s'
  asked s ask := ∃ now, ask = fun op => some (s.run now op).answer

variable {s : MemoryStore} {t : Target} {now : Instant}

/-! ### What calls do -/

theorem heldBy_rows (h : s.Indexed) (t : Target) :
    (s.heldBy t).rows = s.census.idsOf t := by
  rw [h.filed.heldBy_eq]
  rfl

theorem census_without : (s.without t).census = s.census.without t := rfl

theorem census_setBacking (k : Kind) (ids : Table String octets) :
    (s.setBacking k ids).census = s.census := by
  rw [census, entities_setBacking, sessions_setBacking, census]

theorem census_without_setBacking (k : Kind) (ids : Table String octets) :
    ((s.setBacking k ids).without t).census = s.census.without t := by
  rw [census_without, census_setBacking]

theorem register_step (s : MemoryStore) (now : Instant) (t : Target) :
    s.census.Step now (Entry.deed ⟨now, .register t, (s.run now (.register t)).answer⟩)
      (s.register t).store.census := by
  rw [run, Outcome.answer_map, register]
  split_ifs with he hb
  · exact .none
  · exact .none
  · exact .registered t (Bool.eq_false_iff.mpr he)

/-- Every call turns the census as its answer says. -/
theorem run_step (h : s.Sound) (now : Instant) (op : Operation) :
    s.census.Step now (Entry.deed ⟨now, op.work, (s.run now op.work).answer⟩)
      (s.run now op).store.census := by
  cases op with
  | insertBacking t =>
      have hcensus : (s.insertBacking t).store.census = s.census := by
        rw [insertBacking]
        split_ifs
        · rfl
        · exact census_setBacking _ _
      rw [run, Outcome.store_map, hcensus]
      exact .none
  | deleteBacking t =>
      obtain ⟨hstore, hanswer⟩ := h.toIndexed.deleteBacking_eq t
      show s.census.Step now
        (Entry.deed ⟨now, .deleteBacking t, (s.run now (.deleteBacking t)).answer⟩) _
      rw [run, Outcome.store_map, Outcome.answer_map, hstore, hanswer, census_without_setBacking]
      exact .removed ⟨t, s.hasBacking t, s.hasEntity t, (s.heldBy t).rows⟩ rfl
        (heldBy_rows h.toIndexed t)
  | backingDeleted t =>
      show s.census.Step now
        (Entry.deed ⟨now, .backingDeleted t, (s.run now (.backingDeleted t)).answer⟩) _
      rw [run, backingDeleted, h.removeEntity_eq]
      exact .removed ⟨t, false, s.hasEntity t, (s.heldBy t).rows⟩ rfl (heldBy_rows h.toIndexed t)
  | register t => exact register_step s now t
  | ensureRegistered t =>
      have hstore : (s.run now (.ensureRegistered t)).store = (s.register t).store := by
        rw [run, Outcome.store_map, Outcome.store_ensuring]
      rw [hstore]
      exact register_step s now t
  | createSession new =>
      show s.census.Step now
        (Entry.deed ⟨now, .createSession new, (s.run now (.createSession new)).answer⟩) _
      rw [run, createSession]
      split_ifs with he hid
      · exact .none
      · exact .none
      · exact .created new (Bool.eq_false_iff.mpr hid)
  | deleteSession id =>
      show s.census.Step now
        (Entry.deed ⟨now, .deleteSession id, (s.run now (.deleteSession id)).answer⟩) _
      rw [run, deleteSession]
      cases hx : s.sessions.find? id.key with
      | none => exact .none
      | some x =>
          have hthere : s.sessions.contains id.key = true := by
            rw [← Bool.not_eq_false, ← Table.find?_eq_none_iff, hx]
            exact Option.some_ne_none x
          exact .deleted id hthere
  | deleteAllSessions t =>
      have hstore : (s.run now (.deleteAllSessions t)).store.census = s.census.emptied t := by
        rw [run, deleteAllSessions, h.filed.sessionsWithout_heldBy]
        rfl
      rw [hstore]
      exact .emptied t
  | backingExists t | lookup t | listEntities | getSession id | listSessions t | verify =>
      exact .none

/-! ### What calls are told -/

theorem entity?_census : s.census.entity? t = if s.hasEntity t then some t else none := by
  cases he : s.hasEntity t with
  | true => exact Census.entity?_eq_some he
  | false => exact Census.entity?_eq_none.mpr he

theorem entity?_census_ne_none : s.census.entity? t ≠ none ↔ s.hasEntity t = true :=
  Census.entity?_ne_none

theorem census_tells (h : s.Sound) (now : Instant) :
    s.census.Tells fun op => some (s.run now op).answer where
  lookup t := by rw [entity?_census]; rfl
  absent id := by
    rw [Census.owner?, Option.map_eq_none_iff]
    constructor
    · intro hnone
      exact Answer.foundSession.inj (Except.ok.inj (Option.some.inj hnone))
    · intro hnone
      exact congrArg (fun x => some (Except.ok (Answer.foundSession x))) hnone
  found _ id := ⟨s.sessions.find? id.key, rfl, rfl⟩
  duplicate t := by
    rw [entity?_census_ne_none, run, Outcome.answer_map, register]
    split_ifs with he hb <;> simp [he, Except.map]
  registers t ht hb := by
    have he : s.hasEntity t = false := Census.entity?_eq_none.mp ht
    have hb : s.hasBacking t = true :=
      Answer.flag.inj (Except.ok.inj (Option.some.inj hb))
    rw [run, Outcome.answer_map, register, he, hb]
    rfl
  creates new := by
    rw [entity?_census_ne_none, Census.owner?_eq_none, run, Outcome.answer_map, createSession]
    cases he : s.hasEntity new.target with
    | false => simp [Except.map]
    | true =>
        cases hid : s.sessions.contains new.id.key <;> simp [census, hid, Except.map]
  unregistered new ht _ := by
    have he : s.hasEntity new.target = false := Census.entity?_eq_none.mp ht
    rw [run, Outcome.answer_map, createSession, he]
    rfl
  deletes id := by
    rw [Census.owner?_ne_none, run, Outcome.answer_map, deleteSession]
    cases hx : s.sessions.find? id.key with
    | none => simp [Except.map, census, Table.find?_eq_none_iff.mp hx]
    | some x =>
        have hthere : s.census.sessions.contains id.key = true := by
          rw [← Bool.not_eq_false, ← Table.find?_eq_none_iff]
          show s.sessions.find? id.key ≠ none
          rw [hx]
          exact Option.some_ne_none x
        exact iff_of_true rfl hthere
  reports t r hr := by
    have hreport : ∃ b, r = ⟨t, b, s.hasEntity t, (s.heldBy t).rows⟩ := by
      rcases hr with hr | hr
      · rw [run, Outcome.answer_map, (h.toIndexed.deleteBacking_eq t).2] at hr
        exact ⟨_, (Answer.report.inj (Except.ok.inj (Option.some.inj hr))).symm⟩
      · rw [run, backingDeleted, h.removeEntity_eq] at hr
        exact ⟨_, (Answer.report.inj (Except.ok.inj (Option.some.inj hr))).symm⟩
    obtain ⟨b, rfl⟩ := hreport
    rw [heldBy_rows h.toIndexed]
    exact ⟨rfl, entity?_census_ne_none.symm, s.census.idsOf_nodup t, fun id => Census.mem_idsOf⟩
  empties t n hn := by
    have hcount : (s.heldBy t).size = n := Answer.count.inj (Except.ok.inj (Option.some.inj hn))
    refine ⟨s.census.idsOf t, ?_, s.census.idsOf_nodup t, fun id => Census.mem_idsOf⟩
    rw [← heldBy_rows h.toIndexed, ← hcount, Table.size]

theorem registry_keeps : registry.Keeps fun c s => s.Sound ∧ c = s.census where
  start s hs := by
    rw [hs]
    exact ⟨empty_sound, rfl⟩
  idle _ _ _ _ hidle := hidle.elim
  call c s e s' hs he := by
    obtain ⟨hsound, rfl⟩ := hs
    obtain ⟨op, hcall, hanswer, rfl⟩ := he
    have hentry : e = ⟨e.now, op.work, (s.run e.now op.work).answer⟩ := by
      rw [hanswer, ← hcall]
    refine ⟨⟨_, ?_, hsound.run e.now op, rfl⟩, _, ⟨e.now, rfl⟩, ?_⟩
    · rw [hentry]
      exact run_step hsound e.now op
    · rw [hcall, hanswer]
  told c s ask hs hask := by
    obtain ⟨hsound, rfl⟩ := hs
    obtain ⟨now, rfl⟩ := hask
    exact census_tells hsound now

end OwnershipRegistry.MemoryStore
