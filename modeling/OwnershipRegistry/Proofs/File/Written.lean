import OwnershipRegistry.Proofs.File.Failure
import OwnershipRegistry.Proofs.File.Listings
import OwnershipRegistry.Proofs.File.Opening

/-!
Files that stores alone have written, at instants of the era. Every row of an entity is
that of a target and every row of a session that of a session, so that all of them can be
read and every listing is given.
-/

namespace OwnershipRegistry

open OwnershipRegistry.Except (ok_bind exists_mapM_eq_ok)

namespace Database

/-- The rows of entities and sessions are such as stores write in the era. -/
structure Written (db : Database) : Prop where
  entities : ∀ r ∈ db.entityRows, ∃ t, .ofTarget t = r
  sessions : ∀ r ∈ db.sessionRows, ∃ x : Session, .ofSession x = r ∧ x.createdAt.InEra

variable {db db' : Database} {now : Instant}

theorem empty_written : (empty : Database).Written where
  entities r hr := by cases hr
  sessions r hr := by cases hr

theorem Written.kept (h : db.Written) (hkept : db.Kept db') : db'.Written where
  entities := by
    rw [entityRows, hkept.entities.getD_eq]
    exact h.entities
  sessions := by
    rw [sessionRows, hkept.sessions.getD_eq]
    exact h.sessions

/-- Rows that are still there were written before. -/
theorem Written.mono (h : db.Written) (hentities : ∀ r ∈ db'.entityRows, r ∈ db.entityRows)
    (hsessions : ∀ r ∈ db'.sessionRows, r ∈ db.sessionRows) : db'.Written where
  entities r hr := h.entities r (hentities r hr)
  sessions r hr := h.sessions r (hsessions r hr)

theorem Written.withoutBacking (h : db.Written) (k : Kind) (id : Cell) :
    (db.withoutBacking k id).Written := by
  refine h.mono (fun r hr => ?_) fun r hr => (mem_sessionRows_withoutBacking.mp hr).1
  rw [entityRows_withoutBacking] at hr
  exact (List.mem_filter.mp hr).1

theorem Written.withoutEntities (h : db.Written) (p : EntityRow → Bool) :
    (db.withoutEntities p).Written := by
  refine h.mono (fun r hr => ?_) fun r hr => (mem_sessionRows_withoutEntities.mp hr).1
  rw [entityRows_withoutEntities] at hr
  exact (List.mem_filter.mp hr).1

theorem Written.withoutSessions (h : db.Written) (p : SessionRow → Bool) :
    (db.withoutSessions p).Written := by
  refine h.mono (fun r hr => hr) fun r hr => ?_
  rw [sessionRows_withoutSessions] at hr
  exact (List.mem_filter.mp hr).1

end Database

namespace FileStore

open Database

variable {a : Access} {now : Instant} {db db' : Database} {op : Operation} {x : Answer}

theorem Effect.written (h : Effect now db op x db') (hdb : db.Written) (hnow : now.InEra) :
    db'.Written := by
  cases h with
  | backingAdded t =>
      refine hdb.mono (fun r hr => ?_) fun r hr => ?_
      · rwa [entityRows_withBackingRow] at hr
      · rwa [sessionRows_withBackingRow] at hr
  | backingDeleted t => exact hdb.withoutBacking _ _
  | entityDeleted t => exact hdb.withoutEntities _
  | registered op t asked table free =>
      refine ⟨fun r hr => ?_, hdb.sessions⟩
      rcases (mem_entityRows_withEntity table free).mp hr with rfl | hr
      · exact ⟨t, rfl⟩
      · exact hdb.entities r hr
  | sessionMade new table free =>
      refine ⟨hdb.entities, fun r hr => ?_⟩
      rcases (mem_sessionRows_withSession table free).mp hr with rfl | hr
      · exact ⟨new.toSession now, rfl, hnow⟩
      · exact hdb.sessions r hr
  | sessionDeleted | sessionsDeleted => exact hdb.withoutSessions _
  | backingLeftOut | backingMissed | ensured | looked => exact hdb

/-- Whatever comes of an operation, the rows are such as stores write. -/
theorem written_run (hdb : db.Written) (hnow : now.InEra) (a : Access) (op : Operation) :
    (run a now db op).store.Written := by
  cases hanswer : (run a now db op).answer with
  | error e => rwa [run_store_of_error hanswer]
  | ok x => exact (run_effect hanswer).written hdb hnow

theorem written_runKnowing (hdb : db.Written) (hnow : now.InEra) (known : Outline) (a : Access)
    (op : Operation) : (runKnowing known a now db op).1.store.Written := by
  unfold runKnowing
  simp only
  split
  · exact hdb
  · exact written_run hdb hnow a op

/-- Rows that stores have written can all be read, so every listing is given. -/
theorem listingsGiven (hdb : db.Written) (hr : a.reads = true) (he : db.has .entities = true)
    (hs : db.has .sessions = true) (now : Instant) :
    ListingsGiven fun op => some (run a now db op).answer where
  toListingsAgree := listingsAgree a now db
  sessionsGiven t := by
    obtain ⟨l, hl⟩ : ∃ l, (db.heldRows t).mapM SessionRow.told = .ok l := by
      refine exists_mapM_eq_ok.mpr fun r hmem => ?_
      obtain ⟨x, rfl, hera⟩ := hdb.sessions r (mem_heldRows.mp hmem).1
      refine ⟨x, ?_⟩
      rw [SessionRow.told, read_ofSession, Except.mapError_ok, ok_bind, toSession_ofSession hera]
    exact ⟨l, congrArg some (listSessions_eq_ok.mpr ⟨⟨hr, hs⟩, hl⟩)⟩
  entitiesGiven := by
    obtain ⟨l, hl⟩ := exists_eq_map hdb.entities
    exact ⟨l, congrArg some (listEntities_eq_ok.mpr ⟨⟨hr, he⟩, hl⟩)⟩

end FileStore

end OwnershipRegistry
