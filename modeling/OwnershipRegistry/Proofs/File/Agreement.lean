import OwnershipRegistry.Proofs.File.Readback

/-!
Agreement of the stores. Run on the image of a store in memory, an operation of
the file answers what it answers in memory, and leaves the image of what it
leaves there. One call is told apart: where the identifier of a new session is
taken and its owner is not registered, memory names the owner and the file the
identifier.
-/

namespace OwnershipRegistry

/-- An outcome on the file mirrors one in memory: it answers the same and leaves
the image of what is left in memory. -/
structure Outcome.Mirrors (l : Option Ledger) (o : Outcome MemoryStore Answer)
    (o' : Outcome Database Answer) : Prop where
  answer : o'.answer = o.answer
  store : o'.store = o.store.onFile l

namespace MemoryStore

/-- A new session is asked for under an identifier that is taken, for an owner
that is not registered. -/
def IsDoublyRefused (s : MemoryStore) : Operation → Prop
  | .createSession new =>
    s.sessions.contains new.id.key = true ∧ s.hasEntity new.target = false
  | _ => False

variable {s : MemoryStore} {l : Option Ledger} {a : Access} {t : Target} {now : Instant}

/-! ### Changes -/

theorem insertBacking_mirrors (ha : a.Writes) :
    (s.run now (.insertBacking t)).Mirrors l
      (FileStore.run a now (s.onFile l) (.insertBacking t)) := by
  rw [FileStore.run, FileStore.insertBacking_eq ha (s.onFile_ready l), hasBackingRow_onFile, run,
    insertBacking]
  split_ifs with hb
  · exact ⟨rfl, rfl⟩
  · exact ⟨rfl, withBackingRow_onFile⟩

/-- Where no backing record is there, there is no entity to go with it. -/
theorem Sound.deleteBacking_mirrors (h : s.Sound) (ha : a.Writes) :
    (s.run now (.deleteBacking t)).Mirrors l
      (FileStore.run a now (s.onFile l) (.deleteBacking t)) := by
  obtain ⟨hstore, hanswer⟩ := h.toIndexed.deleteBacking_eq t
  rw [FileStore.run, FileStore.deleteBacking_eq ha (s.onFile_ready l)
    (sessionIdsOf_onFile h.toIndexed), hasBackingRow_onFile, contains_entities_onFile]
  by_cases hb : s.hasBacking t = true
  · rw [if_pos hb]
    constructor
    · rw [MemoryStore.run, Outcome.answer_map, Outcome.answer_map, hanswer, hb]
    · rw [MemoryStore.run, Outcome.store_map, Outcome.store_map, hstore]
      exact h.withoutBacking_onFile
  -- the file reports nothing here, so nothing may have gone in memory
  · have hfree : (s.backing t.kind).contains (octets t.id) = false := Bool.eq_false_iff.mpr hb
    have habsent : t ∉ s.entities.rows := fun ht => hb (hasBacking_iff.mpr (h.backed t ht))
    have hentity : s.hasEntity t = false :=
      Bool.eq_false_iff.mpr fun ht => habsent (hasEntity_iff.mp ht)
    rw [if_neg hb]
    constructor
    · rw [MemoryStore.run, Outcome.answer_map, Outcome.answer_map, hanswer,
        h.heldBy_eq_empty habsent, hentity, Bool.eq_false_iff.mpr hb]
      rfl
    · rw [MemoryStore.run, Outcome.store_map, Outcome.store_map, hstore,
        Table.erase_of_contains_eq_false hfree, setBacking_backing, h.without_eq_self habsent]

theorem Sound.backingDeleted_mirrors (h : s.Sound) (ha : a.Writes) :
    (s.run now (.backingDeleted t)).Mirrors l
      (FileStore.run a now (s.onFile l) (.backingDeleted t)) := by
  obtain ⟨hstore, hanswer⟩ :=
    FileStore.backingDeleted_eq ha (s.onFile_ready l) (sessionIdsOf_onFile (t := t) h.toIndexed)
  rw [FileStore.run, MemoryStore.run, MemoryStore.backingDeleted, h.removeEntity_eq]
  constructor
  · rw [Outcome.answer_map, hanswer, contains_entities_onFile]
    rfl
  · rw [Outcome.store_map, hstore]
    exact h.withoutEntities_onFile fun t' => ofTarget_beq t' t

/-- The file looks for the entity first, as memory does. -/
theorem register_mirrors (ha : a.Writes) :
    (FileStore.register a (s.onFile l) t).answer = (s.register t).answer ∧
      (FileStore.register a (s.onFile l) t).store = (s.register t).store.onFile l := by
  rw [FileStore.register_eq ha (s.onFile_ready l), contains_entities_onFile, hasBackingRow_onFile,
    register]
  by_cases he : s.hasEntity t = true
  · rw [if_pos he, if_pos he]
    exact ⟨rfl, rfl⟩
  · rw [if_neg he, if_neg he]
    by_cases hb : s.hasBacking t = true
    · rw [if_pos hb, if_neg (by simp [hb])]
      exact ⟨rfl, withEntity_onFile⟩
    · rw [if_neg hb, if_pos (by simp [hb])]
      exact ⟨rfl, rfl⟩

theorem createSession_mirrors (ha : a.Writes) {new : NewSession}
    (hone : ¬s.IsDoublyRefused (.createSession new)) :
    (s.run now (.createSession new)).Mirrors l
      (FileStore.run a now (s.onFile l) (.createSession new)) := by
  have hready := s.onFile_ready l
  rw [FileStore.run, FileStore.createSession_eq ha hready.sessions hready.entities
    (hready.isBlocked_eq_false _ _), contains_sessions_onFile, hasEntityRow_onFile, run,
    createSession]
  cases hid : s.sessions.contains new.id.key with
  | true =>
      have howner : s.hasEntity new.target = true :=
        Bool.eq_true_of_not_eq_false fun hno => hone ⟨hid, hno⟩
      simp only [howner, Bool.not_true, Bool.false_eq_true, if_true, if_false]
      exact ⟨rfl, rfl⟩
  | false =>
      cases howner : s.hasEntity new.target with
      | true =>
          simp only [Bool.not_true, Bool.false_eq_true, if_true, if_false]
          exact ⟨rfl, withSession_onFile _ _⟩
      | false =>
          simp only [Bool.not_false, Bool.false_eq_true, if_true, if_false]
          exact ⟨rfl, rfl⟩

theorem deleteSession_mirrors (ha : a.Writes) (id : SessionId) :
    (s.run now (.deleteSession id)).Mirrors l
      (FileStore.run a now (s.onFile l) (.deleteSession id)) := by
  rw [FileStore.run, FileStore.deleteSession_eq ha (s.onFile_ready l), contains_sessions_onFile,
    run, deleteSession]
  cases hx : s.sessions.find? id.key with
  | none =>
      have hno := Table.find?_eq_none_iff.mp hx
      rw [hno]
      exact ⟨rfl, rfl⟩
  | some x =>
      have hyes : s.sessions.contains id.key = true := by
        refine Bool.eq_true_of_not_eq_false fun hno => ?_
        rw [Table.find?_eq_none_iff.mpr hno] at hx
        cases hx
      -- the row that goes is told by its key in memory and by its cell in the file
      have hkey (y : Session) : ((SessionRow.ofSession y).id == .ofString id.text) =
          (compare y.key id.key == .eq) := by
        have hfile : compare (SessionRow.ofSession y).id (.ofString id.text) = .eq ↔
            (SessionRow.ofSession y).id = .ofString id.text := Std.LawfulEqCmp.compare_eq_iff_eq
        rw [Bool.eq_iff_iff, beq_iff_eq, beq_iff_eq, ← hfile]
        rfl
      rw [if_pos hyes]
      exact ⟨rfl, withoutSessions_onFile (fun y _ => hkey y) _⟩

theorem Sound.deleteAllSessions_mirrors (h : s.Sound) (ha : a.Writes) :
    (s.run now (.deleteAllSessions t)).Mirrors l
      (FileStore.run a now (s.onFile l) (.deleteAllSessions t)) := by
  have hcount : (s.onFile l).sessionRows.countP (·.owner == .ofTarget t) = (s.heldBy t).size := by
    rw [sessionRows_onFile, List.countP_map, h.filed.heldBy_eq, Table.size_map, Table.size,
      Table.rows_keep, ← List.countP_eq_length_filter]
    exact List.countP_congr fun x _ => by simp only [Function.comp_apply, owner_beq_ofTarget]
  rw [FileStore.run, FileStore.deleteAllSessions_eq ha (s.onFile_ready l), hcount, MemoryStore.run,
    MemoryStore.deleteAllSessions, h.filed.sessionsWithout_heldBy]
  exact ⟨rfl, withoutSessions_onFile (fun x _ => owner_beq_ofTarget x t) _⟩

/-! ### Readings -/

theorem reading_mirrors {α : Type} (ha : a.reads = true) {f : Database → Except Fault α} {x : α}
    (hf : f (s.onFile l) = .ok x) (g : α → Answer) :
    (Outcome.read s (.ok (g x))).Mirrors l ((FileStore.reading a (s.onFile l) f).map g) := by
  rw [FileStore.reading_of_ok ha hf]
  exact ⟨rfl, rfl⟩

/-- A reading whose result is judged once more. -/
theorem judged_mirrors {α β : Type} (ha : a.reads = true) {r : Database → Except Fault α}
    {f : α → Except RegistryError β} {x : α} {y : β} (hr : r (s.onFile l) = .ok x)
    (hf : f x = .ok y) (g : β → Answer) :
    (Outcome.read s (.ok (g y))).Mirrors l
      (((FileStore.reading a (s.onFile l) r).judge f).map g) := by
  rw [FileStore.reading_of_ok ha hr]
  refine ⟨?_, rfl⟩
  show (f x).map g = .ok (g y)
  rw [hf]
  rfl

theorem backingExists_mirrors (ha : a.reads = true) :
    (s.run now (.backingExists t)).Mirrors l
      (FileStore.run a now (s.onFile l) (.backingExists t)) := by
  have hread : (s.onFile l).backingPresent t = .ok (s.hasBacking t) := by
    rw [(s.onFile_ready l).backingPresent_eq, hasBackingRow_onFile]
  exact reading_mirrors ha hread Answer.flag

theorem lookup_mirrors (ha : a.reads = true) :
    (s.run now (.lookup t)).Mirrors l (FileStore.run a now (s.onFile l) (.lookup t)) := by
  have hread : (s.onFile l).entityPresent t = .ok (s.hasEntity t) := by
    rw [(s.onFile_ready l).entityPresent_eq, contains_entities_onFile]
  exact reading_mirrors ha hread fun (b : Bool) => .found (if b then some t else none)

theorem listEntities_mirrors (ha : a.reads = true) :
    (s.run now .listEntities).Mirrors l (FileStore.run a now (s.onFile l) .listEntities) :=
  judged_mirrors ha entityTexts_onFile (mapM_parse s.entities.rows) Answer.entities

theorem getSession_mirrors (hd : s.Dated) (ha : a.reads = true) (id : SessionId) :
    (s.run now (.getSession id)).Mirrors l
      (FileStore.run a now (s.onFile l) (.getSession id)) := by
  have hdated : ∀ x, s.sessions.find? id.key = some x → x.createdAt.InEra := by
    intro x hx
    exact hd x (Table.find?_eq_some_iff.mp hx).1
  exact judged_mirrors ha (sessionText?_onFile id) (optionMapM_toSession hdated)
    Answer.foundSession

theorem Sound.listSessions_mirrors (h : s.Sound) (hd : s.Dated) (ha : a.reads = true) :
    (s.run now (.listSessions t)).Mirrors l
      (FileStore.run a now (s.onFile l) (.listSessions t)) := by
  have hdated : ∀ x ∈ s.sessions.rows.filter fun x => x.target == t, x.createdAt.InEra := by
    intro x hx
    exact hd x (List.mem_filter.mp hx).1
  rw [MemoryStore.run, h.filed.listSessions_eq]
  exact judged_mirrors ha sessionTextsOf_onFile (mapM_toSession hdated) Answer.sessions

theorem Sound.verify_mirrors (h : s.Sound) (ha : a.reads = true) :
    (s.run now .verify).Mirrors l (FileStore.run a now (s.onFile l) .verify) := by
  have hready := s.onFile_ready l
  constructor
  · rw [FileStore.run_verify_of_whole now h.whole_onFile ha hready.entities hready.sessions
      hready.backing, MemoryStore.run, h.violations_eq_nil]
    rfl
  · rfl

/-- Every operation but one that memory and the file refuse on different grounds
does the same on the image of a store as in memory. -/
theorem Sound.run_mirrors (h : s.Sound) (hd : s.Dated) (ha : a.Writes) (hr : a.reads = true)
    (now : Instant) {op : Operation} (hone : ¬s.IsDoublyRefused op) :
    (s.run now op).Mirrors l (FileStore.run a now (s.onFile l) op) := by
  cases op with
  | insertBacking t => exact insertBacking_mirrors ha
  | backingExists t => exact backingExists_mirrors hr
  | deleteBacking t => exact h.deleteBacking_mirrors ha
  | backingDeleted t => exact h.backingDeleted_mirrors ha
  | register t =>
      obtain ⟨hanswer, hstore⟩ := register_mirrors (s := s) (l := l) (t := t) ha
      exact ⟨congrArg (Except.map Answer.entity) hanswer, hstore⟩
  | ensureRegistered t =>
      obtain ⟨hanswer, hstore⟩ := register_mirrors (s := s) (l := l) (t := t) ha
      refine ⟨congrArg (Except.map Answer.entity) (Outcome.answer_ensuring_congr hanswer), ?_⟩
      rw [FileStore.run, MemoryStore.run, Outcome.store_map, Outcome.store_map,
        Outcome.store_ensuring, Outcome.store_ensuring]
      exact hstore
  | lookup t => exact lookup_mirrors hr
  | listEntities => exact listEntities_mirrors hr
  | createSession new => exact createSession_mirrors ha hone
  | getSession id => exact getSession_mirrors hd hr id
  | listSessions t => exact h.listSessions_mirrors hd hr
  | deleteSession id => exact deleteSession_mirrors ha id
  | deleteAllSessions t => exact h.deleteAllSessions_mirrors ha
  | verify => exact h.verify_mirrors hr

/-- The one call on which they part changes nothing on either side. -/
theorem run_of_isDoublyRefused (ha : a.Writes) (now : Instant) {new : NewSession}
    (hboth : s.IsDoublyRefused (.createSession new)) :
    s.run now (.createSession new) = .read s (.error (.unknownEntity new.target)) ∧
      FileStore.run a now (s.onFile l) (.createSession new) =
        .read (s.onFile l) (.error (.duplicateSession new.id)) := by
  have hready := s.onFile_ready l
  obtain ⟨hid, howner⟩ := hboth
  constructor
  · rw [run, createSession, howner]
    rfl
  · rw [FileStore.run, FileStore.createSession_eq ha hready.sessions hready.entities
      (hready.isBlocked_eq_false _ _), contains_sessions_onFile, if_pos hid]
    rfl

/-! ### Runs -/

theorem Dated.run (hd : s.Dated) (hnow : now.InEra) (op : Operation) :
    (s.run now op).store.Dated := by
  intro x hx
  rcases mem_sessions_run hx with hx | ⟨new, -, rfl⟩
  · exact hd x hx
  · exact hnow

theorem Dated.after (hd : s.Dated) {history : List (Instant × Operation)}
    (hnow : ∀ step ∈ history, step.1.InEra) : (s.after history).Dated := by
  induction history generalizing s with
  | nil => exact hd
  | cons step history ih =>
      have hfirst : (s.run step.1 step.2).store.Dated :=
        hd.run (hnow step List.mem_cons_self) step.2
      exact ih hfirst fun step' hstep => hnow step' (List.mem_cons_of_mem step hstep)

end MemoryStore

end OwnershipRegistry
