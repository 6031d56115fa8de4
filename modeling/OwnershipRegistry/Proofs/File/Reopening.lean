import OwnershipRegistry.Proofs.File.Effect
import OwnershipRegistry.Proofs.File.Readback
import OwnershipRegistry.Proofs.File.Resumption
import OwnershipRegistry.Proofs.Journal

/-!
Files on which stores are opened again. Once a store has been opened, all that an
opening provides is there and stays so whatever operations are run, and opening
another store leaves the file as it is. A session stays in the file until an
operation tells of its going, and is read as it was made.
-/

namespace OwnershipRegistry

namespace Database

/-- All that an opening provides is there. -/
structure Settled (db : Database) : Prop extends Listed db where
  backing : ∀ k, db.hasTable (.ofKind k) = true

variable {a : Access} {now : Instant} {db db' : Database} {c : StoreConfig}

/-- Tables of backing records that are there stay as they are. -/
theorem provideBacking_eq (h : ∀ k, db.hasTable (.ofKind k) = true) (hreads : a.reads = true)
    (ks : List Kind) : db.provideBacking a ks = ⟨db, .ok (), []⟩ := by
  induction ks with
  | nil => rfl
  | cons k ks ih =>
      have hthere : provide a db (.ofKind k) (db.setBacking k (some {})) = .ok db :=
        provide_eq_ok.mpr ⟨hreads, .inl ⟨h k, rfl⟩⟩
      rw [provideBacking, hthere]
      exact ih

/-- Opening leaves a settled file as it is. -/
theorem Settled.prepare_eq (h : db.Settled) (hreads : a.reads = true) (hbegins : a.begins = true)
    (now : Instant) (c : StoreConfig) :
    (db.prepare a now c).store = db ∧ (db.prepare a now c).answer = .ok [] := by
  obtain ⟨hanswer, hstore⟩ := h.toListed.migrate_eq hreads hbegins now
  rw [prepare]
  simp only [provideBacking_eq h.backing hreads, hanswer, hstore]
  exact ⟨trivial, trivial⟩

theorem Kept.hasTable (h : db.Kept db') {k : Kind} (hk : db.hasTable (.ofKind k) = true) :
    db'.hasTable (.ofKind k) = true := by
  rw [Database.hasTable, Bool.or_eq_true, has_ofKind] at hk ⊢
  rw [hasStranger, h.strangers]
  refine hk.imp_left fun hsome => ?_
  obtain hsame | ⟨hnone, hmade⟩ := h.backing k
  · rw [hsame, hsome]
  · rw [hmade]
    rfl

/-- An opening that succeeds settles the file. -/
theorem settled_prepare (hbacking : ∀ k, db.hasTable (.ofKind k) = true) {ms : List Migration}
    (h : (db.prepare a now c).answer = .ok ms) : (db.prepare a now c).store.Settled where
  backing k := (kept_prepare a now c db).hasTable (hbacking k)
  toListed := by
    unfold prepare at h ⊢
    generalize db.provideBacking a (if c.provisionBacking then Kind.all else []) = start at h ⊢
    cases hstart : start.answer with
    | error e =>
        simp only [hstart] at h
        cases h
    | ok =>
        simp only [hstart] at h ⊢
        cases hmigrate : (start.store.migrate a now).answer with
        | error e =>
            simp only [hmigrate] at h
            cases h
        | ok ms => exact listed_migrate hmigrate

/-- Operations do not unsettle a file. -/
theorem Settled.sameTables (h : db.Settled) (hsame : db.SameTables db') : db'.Settled where
  listing := by
    rw [hsame.ledger]
    exact h.listing
  recorded m := by
    rw [isRecorded, hsame.ledger]
    exact h.recorded m
  backing k := by
    rw [Database.hasTable, hsame.has, hasStranger, hsame.strangers]
    exact h.backing k

/-! ### Sessions that stay -/

/-- The identifiers of a target's sessions are those of the rows with it. -/
theorem mem_of_sessionIdsOf {t : Target} {ids : List SessionId} (h : db.sessionIdsOf t = .ok ids)
    {x : Session} (hx : .ofSession x ∈ db.sessionRows) (ht : x.target = t) : x.id ∈ ids := by
  obtain ⟨rows, hrows, hread⟩ := Except.bind_eq_ok.mp h
  obtain ⟨-, hrows⟩ := understood_eq_ok.mp hrows
  obtain rfl := Except.ok.inj hrows
  have hmem : .ofSession x ∈ (db.sessions.getD ∅).rows.filter fun r => r.owner == .ofTarget t := by
    refine List.mem_filter.mpr ⟨hx, ?_⟩
    rw [owner_beq_ofTarget, beq_iff_eq, ht]
  obtain ⟨id, hid, hcell⟩ := Except.mem_of_mapM_eq_ok hread hmem
  simp only [SessionRow.ofSession, Cell.read_ofString, Except.ok_bind] at hcell
  obtain rfl : x.id = id := Except.ok.inj hcell
  exact hid

end Database

/-- A call tells, by its answer, of the going of a session. -/
def Entry.Ends (e : Entry) (x : Session) : Prop :=
  .gone ∈ e.deed.sessionMarks x.id (some x.target)

namespace FileStore

open Database

variable {a : Access} {now : Instant} {db db' : Database} {op : Operation} {y : Answer}
  {x : Session}

theorem gone_mem_replicate {r : CascadeReport} (h : x.id ∈ r.sessionsRemoved) :
    Mark.gone ∈ Deed.sessionMarks x.id (some x.target) (.removed r) :=
  List.mem_replicate.mpr ⟨(List.count_pos_iff.mpr h).ne', rfl⟩

/-- An operation that succeeds leaves a session there, unless it tells of its
going. -/
theorem Effect.mem_sessionRows (h : Effect now db op y db') (hx : .ofSession x ∈ db.sessionRows)
    (hstays : ¬Entry.Ends ⟨now, op, .ok y⟩ x) : .ofSession x ∈ db'.sessionRows := by
  cases h with
  | backingAdded t =>
      rw [sessionRows_withBackingRow]
      exact hx
  | backingLeftOut | backingMissed | ensured | looked => exact hx
  | backingDeleted t ids listed present =>
      refine mem_sessionRows_withoutBacking.mpr ⟨hx, fun hreference => ?_⟩
      -- a session of the target is one of those that are reported
      have ht : x.target = t := by
        have hbeq := MemoryStore.reference_ofTarget t x.target
        rw [← owner_ofSession, hreference, beq_self_eq_true] at hbeq
        exact beq_iff_eq.mp hbeq.symm
      exact absurd (gone_mem_replicate (mem_of_sessionIdsOf listed hx ht)) hstays
  | entityDeleted t ids listed =>
      refine mem_sessionRows_withoutEntities.mpr ⟨hx, fun howner => ?_⟩
      rw [owner_beq_ofTarget, beq_iff_eq] at howner
      exact absurd (gone_mem_replicate (mem_of_sessionIdsOf listed hx howner)) hstays
  | registered op t => exact hx
  | sessionMade new table free owned =>
      exact (mem_sessionRows_withSession table free).mpr (.inr hx)
  | sessionDeleted id present =>
      rw [sessionRows_withoutSessions]
      refine List.mem_filter.mpr ⟨hx, ?_⟩
      by_contra hgone
      have hid : Cell.ofString x.id.text = .ofString id.text := by
        simpa [SessionRow.ofSession] using hgone
      have hid : id = x.id := by
        cases id
        exact congrArg SessionId.mk (Cell.ofString_injective hid).symm
      exact hstays (by simp [Entry.Ends, Entry.deed, Deed.sessionMarks, hid])
  | sessionsDeleted t =>
      rw [sessionRows_withoutSessions]
      refine List.mem_filter.mpr ⟨hx, ?_⟩
      by_contra hgone
      have ht : x.target = t := by
        rw [owner_beq_ofTarget] at hgone
        simpa using hgone
      exact hstays (by simp [Entry.Ends, Entry.deed, Deed.sessionMarks, ht])

theorem run_mem_sessionRows (hx : .ofSession x ∈ db.sessionRows)
    (hstays : ¬Entry.Ends ⟨now, op, (run a now db op).answer⟩ x) :
    .ofSession x ∈ (run a now db op).store.sessionRows := by
  cases hanswer : (run a now db op).answer with
  | error e =>
      rw [run_store_of_error hanswer]
      exact hx
  | ok y =>
      rw [hanswer] at hstays
      exact (run_effect hanswer).mem_sessionRows hx hstays

/-- A session that is made stands in the file. -/
theorem createSession_mem_sessionRows {new : NewSession}
    (h : (run a now db (.createSession new)).answer = .ok (.session x)) :
    x = new.toSession now ∧
      .ofSession x ∈ (run a now db (.createSession new)).store.sessionRows := by
  have heffect := run_effect h
  generalize (run a now db (.createSession new)).store = db' at heffect
  cases heffect with
  | sessionMade new table free owned =>
      exact ⟨rfl, (mem_sessionRows_withSession table free).mpr (.inl rfl)⟩
  | looked op x looks => cases looks

/-- A session of the era that stands in the file is read as it is. -/
theorem getSession_of_mem (hr : a.reads = true) (hx : .ofSession x ∈ db.sessionRows)
    (hera : x.createdAt.InEra) (now : Instant) :
    (run a now db (.getSession x.id)).answer = .ok (.foundSession (some x)) := by
  have hsessions : db.has .sessions = true := by
    rw [has]
    cases hs : db.sessions with
    | none =>
        rw [sessionRows, hs] at hx
        cases hx
    | some rows => rfl
  have hfind : (db.sessions.getD ∅).find? (.ofString x.id.text) = some (.ofSession x) :=
    Table.find?_eq_some_iff.mpr ⟨hx, rfl⟩
  have hread : db.sessionText? x.id = .ok (some (.ofSession x)) := by
    rw [sessionText?, understood_eq (refusal_readSessions hsessions), hfind, Option.mapM_some,
      read_ofSession]
    rfl
  rw [run, getSession, reading_of_ok hr hread]
  show ((some (SessionText.ofSession x)).mapM SessionText.toSession).map Answer.foundSession = _
  rw [Option.mapM_some, toSession_ofSession hera]
  rfl

end FileStore

end OwnershipRegistry
