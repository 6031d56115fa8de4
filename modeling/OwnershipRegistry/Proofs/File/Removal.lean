import OwnershipRegistry.Proofs.File.Deletable
import OwnershipRegistry.Proofs.File.Recall

/-!
Removals in the file. Where the chain holds a deletion succeeds just if what
belongs to the target can be deleted and no lock is in the way, and then so does
every removal: it reports what it takes and leaves the rest, whatever the store
that makes it remembers.
-/

namespace OwnershipRegistry

namespace FileStore

open Database

variable {a : Access} {now : Instant} {db : Database} {t : Target}

/-! ### Calls that succeed -/

theorem exists_writing {α : Type} {f : Database → Except RegistryError (Database × α)}
    {events : α → List Event} :
    (∃ x, (writing a db f events).answer = .ok x) ↔
      a.begins = true ∧ a.commits = true ∧ ∃ r, f db = .ok r := by
  rw [writing, Access.write]
  cases a.begins <;> cases a.commits <;> cases f db <;> simp

theorem exists_change {α : Type} {s : Statement} {x : Except Fault α} :
    (∃ y, a.change db s x = .ok y) ↔ a.changes = true ∧ ∃ y, x = .ok y := by
  rw [Access.change]
  cases a.changes with
  | true => simp
  | false => simp [understood_eq_ok]

theorem exists_entityPresent :
    (∃ b, db.entityPresent t = .ok b) ↔ db.has .entities = true := by
  rw [entityPresent, exists_understood]
  constructor
  · rintro ⟨hu, -⟩
    exact has_of_refusal_eq_none (n := .entities) rfl hu
  · intro he
    exact ⟨refusal_readEntities he, _, rfl⟩

/-- Where the chain holds, a deletion succeeds just if rows can be written and
what belongs to the target can be deleted. -/
theorem exists_deleteBacking_answer (hwhole : db.Whole) :
    (∃ r, (deleteBacking a db t).answer = .ok r) ↔ a.Writes ∧ db.Deletable t := by
  have hsteps : (∃ r, (deleteBacking a db t).answer = .ok r) ↔
      a.begins = true ∧ a.commits = true ∧ (∃ b, db.entityPresent t = .ok b) ∧
        (∃ ids, db.sessionIdsOf t = .ok ids) ∧ a.changes = true ∧
        ∃ x, db.deleteBacking {} t.kind (some (.ofString t.id)) = .ok x := by
    have hchange : (∃ x, a.change db (.deleteBacking t.kind)
        (db.deleteBacking {} t.kind (some (.ofString t.id))) = .ok x) ↔ a.changes = true ∧
          ∃ x, db.deleteBacking {} t.kind (some (.ofString t.id)) = .ok x := exists_change
    rw [deleteBacking, exists_writing, ← hchange]
    refine and_congr_right fun _ => and_congr_right fun _ => ?_
    simp only [Except.exists_ok_bind, Except.mapError_eq_ok]
    simp [pure, Except.pure]
  rw [hsteps, exists_entityPresent, exists_sessionIdsOf, hwhole.exists_deleteBacking rfl]
  constructor
  · rintro ⟨hb, hc, he, ⟨hs, hlegible⟩, hchanges, ⟨-, hbacking⟩, hfree⟩
    exact ⟨⟨hb, hc, hchanges⟩, hfree, hbacking he, he, hs, hlegible⟩
  · rintro ⟨ha, h⟩
    exact ⟨ha.begins, ha.commits, h.entities, ⟨h.sessions, h.legible⟩, ha.changes,
      ⟨h.backing t.kind, fun _ => h.backing⟩, h.toUnblocked⟩

/-- A notice succeeds wherever a deletion does. -/
theorem exists_backingDeleted_answer (ha : a.Writes) (h : db.Deletable t) :
    ∃ r, (backingDeleted a db t).answer = .ok r := by
  have hpresent : db.backingPresent t = .ok (db.hasBackingRow t.kind (.ofString t.id)) :=
    understood_eq (refusal_readBacking (h.backing t.kind)) _
  obtain ⟨x, hx⟩ : ∃ x, db.deleteEntities {} (· == .ofTarget t) = .ok x := by
    refine (exists_deleteEntities rfl).mpr ⟨⟨h.entities, h.backing⟩, fun r hr ht => ?_,
      fun s hs ht _ => h.held s hs (beq_iff_eq.mp ht)⟩
    exact h.entity (beq_iff_eq.mp ht ▸ hr)
  rw [backingDeleted, Outcome.answer_after, exists_writing]
  refine ⟨ha.begins, ha.commits, ?_⟩
  rw [hpresent, sessionIdsOf_eq h.sessions h.legible, change_of_writes ha, hx]
  exact ⟨_, rfl⟩

/-- What a removal that succeeds has reported and left. -/
theorem Effect.removal {r : Removal} {x : Answer} {db' : Database} (hwhole : db.Whole)
    (hdeletable : db.Deletable t) (h : Effect now db (r.operation t) x db') :
    x = .report ((db.estate t).report t r) ∧ db' = db.left t r := by
  have hlisted {ids : List SessionId} (hids : db.sessionIdsOf t = .ok ids) :
      ids = (db.estate t).sessions :=
    Except.ok.inj (hids.symm.trans (sessionIdsOf_eq hdeletable.sessions hdeletable.legible))
  cases r with
  | deletion =>
      cases h with
      | backingMissed _ ids listed absent =>
          rw [hwhole.estate_eq_bare absent, hwhole.left_deletion_eq_self absent]
          exact ⟨rfl, rfl⟩
      | backingDeleted _ ids listed present =>
          have hbacked : (db.estate t).backed = true := any_backing.mpr present
          rw [hlisted listed, Estate.report, hbacked]
          exact ⟨rfl, rfl⟩
      | registered _ _ asked => rcases asked with asked | asked <;> cases asked
      | looked _ _ looks => cases looks
  | notice =>
      cases h with
      | entityDeleted _ ids listed =>
          rw [hlisted listed]
          exact ⟨rfl, rfl⟩
      | registered _ _ asked => rcases asked with asked | asked <;> cases asked
      | looked _ _ looks => cases looks

/-! ### Stores on the file -/

/-- A store as it makes a call: what it remembers of the file, the steps that it
may take there, and the instant. -/
structure Caller where
  known : Outline
  access : Access
  now : Instant

namespace Caller

def run (db : Database) (c : Caller) (op : Operation) : Outcome Database Answer :=
  (runKnowing c.known c.access c.now db op).1

/-- No lock is in the way of the caller. -/
structure Unhindered (c : Caller) : Prop where
  reads : c.access.reads = true
  writes : c.access.Writes

variable {c : Caller}

/-- A call that succeeds ran on the file as it is, whatever its store remembers. -/
theorem run_eq_of_ok {op : Operation} {x : Answer} (h : (c.run db op).answer = .ok x) :
    c.run db op = FileStore.run c.access c.now db op := by
  rw [run, runKnowing] at h ⊢
  split at h
  · cases h
  · rfl

/-- Where no fault is told of the first statement without another look, the call
runs on the file as it is, whatever its store remembers. -/
theorem run_of_rechecked {op : Operation} (hr : c.access.reads = true)
    (h : ∀ x, c.known.obstacle {} op.firstStatement = some x → x.rechecked = true)
    (db : Database) : c.run db op = FileStore.run c.access c.now db op := by
  refine runKnowing_eq_run_of_recalled hr ?_ c.now db
  rw [Outline.recalled, Option.bind_eq_none_iff]
  intro x hx
  rw [h x hx]
  rfl

theorem run_removal (hr : c.access.reads = true) (db : Database) (r : Removal) :
    c.run db (r.operation t) = FileStore.run c.access c.now db (r.operation t) := by
  refine run_of_rechecked hr (fun x hx => ?_) db
  cases r <;> exact Outline.rechecked_of_lacking hx

/-- Where the chain holds, a deletion succeeds just if rows can be written and
what belongs to the target can be deleted. -/
theorem exists_deletion (hwhole : db.Whole) (hr : c.access.reads = true) :
    (∃ x, (c.run db (.deleteBacking t)).answer = .ok x) ↔ c.access.Writes ∧ db.Deletable t := by
  have hrun : c.run db (.deleteBacking t) = FileStore.run c.access c.now db (.deleteBacking t) :=
    run_removal hr db .deletion
  rw [hrun, FileStore.run, Outcome.answer_map, Except.exists_ok_map,
    exists_deleteBacking_answer hwhole]

theorem run_of_deletable (hc : c.Unhindered) (hwhole : db.Whole) (h : db.Deletable t)
    (r : Removal) :
    (c.run db (r.operation t)).answer = .ok (.report ((db.estate t).report t r)) ∧
      (c.run db (r.operation t)).store = db.left t r := by
  obtain ⟨x, hx⟩ : ∃ x, (FileStore.run c.access c.now db (r.operation t)).answer = .ok x := by
    cases r with
    | deletion =>
        exact Except.exists_ok_map.mpr ((exists_deleteBacking_answer hwhole).mpr ⟨hc.writes, h⟩)
    | notice => exact Except.exists_ok_map.mpr (exists_backingDeleted_answer hc.writes h)
  obtain ⟨rfl, hstore⟩ := (run_effect hx).removal hwhole h
  rw [run_removal hc.reads]
  exact ⟨hx, hstore⟩

end Caller

/-- Removals in a file where the chain holds. -/
theorem removes (t : Target) :
    Removes Caller.run Caller.Unhindered t (fun db => db.Whole ∧ db.Deletable t)
      (fun db => db.estate t) (fun db => db.left t) where
  answer r h hc := (Caller.run_of_deletable hc h.1 h.2 r).1
  store r h hc := (Caller.run_of_deletable hc h.1 h.2 r).2
  keeps r h := ⟨h.1.left t r, h.2.left r⟩
  remains r h := h.1.estate_left r
  absorbed r _ := left_absorbed r
  settled r _ := left_settled r

end FileStore

end OwnershipRegistry
