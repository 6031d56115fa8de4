import OwnershipRegistry.Proofs.Accounts
import OwnershipRegistry.Proofs.File.Effect
import OwnershipRegistry.Proofs.File.Opening
import OwnershipRegistry.Proofs.File.Readback
import OwnershipRegistry.Proofs.File.Retry

/-!
The census that a file shows. Where the rows of entities and sessions are those
of a census, every operation turns the census as its answer says, and every
question is answered by it. That needs no backing record to be looked at: an
entity is there only beside its record, so that a file without tables of records
shows the empty census.
-/

namespace OwnershipRegistry

/-- A target without an entity has no sessions that could go with it. -/
theorem Census.without_eq_self {c : Census} {t : Target}
    (howned : ∀ x ∈ c.sessions.rows, x.target ∈ c.entities.rows)
    (ht : c.entities.contains t = false) : c.without t = c ∧ c.idsOf t = [] := by
  have hother : ∀ x ∈ c.sessions.rows, x.target ≠ t := by
    rintro x hx rfl
    exact Table.contains_eq_false_iff.mp ht _ (howned x hx) rfl
  constructor
  · have hkeep : c.sessions.keep (fun x => x.target != t) = c.sessions :=
      Table.keep_eq_self fun x hx => bne_iff_ne.mpr (hother x hx)
    rw [without, emptied, hkeep, Table.erase_of_contains_eq_false ht]
  · rw [idsOf, List.map_eq_nil_iff, List.filter_eq_nil_iff]
    intro x hx
    simpa using hother x hx

namespace Database

/-- The rows of entities and sessions are those of a census. -/
structure Shows (db : Database) (c : Census) : Prop where
  entities : db.entities.getD ∅ = c.entities.map EntityRow.ofTarget compare_ofTarget
  sessions : db.sessions.getD ∅ = c.sessions.map SessionRow.ofSession compare_ofSession

variable {db db' : Database} {c : Census} {t : Target} {id : SessionId}

theorem empty_shows : (empty : Database).Shows {} := ⟨rfl, rfl⟩

/-! ### Looking rows up -/

theorem Shows.contains_entities (h : db.Shows c) (t : Target) :
    (db.entities.getD ∅).contains (.ofTarget t) = c.entities.contains t := by
  rw [h.entities]
  exact Table.contains_map (f := EntityRow.ofTarget) (h := compare_ofTarget)
    (fun r => compare_ofTarget r t) c.entities

theorem Shows.mem_entityRows (h : db.Shows c) :
    .ofTarget t ∈ db.entityRows ↔ c.entities.contains t = true := by
  rw [← Database.contains_entities, h.contains_entities]

theorem Shows.find?_sessions (h : db.Shows c) (id : SessionId) :
    (db.sessions.getD ∅).find? (.ofString id.text) =
      (c.sessions.find? id.key).map SessionRow.ofSession := by
  rw [h.sessions]
  exact Table.find?_map (h := compare_ofSession) (fun x => compare_ofString x.id.text id.text)
    c.sessions

theorem Shows.contains_sessions (h : db.Shows c) (id : SessionId) :
    (db.sessions.getD ∅).contains (.ofString id.text) = c.sessions.contains id.key := by
  rw [h.sessions]
  exact Table.contains_map (h := compare_ofSession)
    (fun x => compare_ofString x.id.text id.text) c.sessions

theorem Shows.sessionRows_eq (h : db.Shows c) :
    db.sessionRows = c.sessions.rows.map .ofSession := by
  rw [sessionRows, h.sessions]
  rfl

/-- Every session of the census has its entity. -/
theorem Shows.owned (h : db.Shows c) (hwhole : db.Whole) :
    ∀ x ∈ c.sessions.rows, x.target ∈ c.entities.rows := by
  intro x hx
  have hrow : SessionRow.ofSession x ∈ db.sessionRows := by
    rw [h.sessionRows_eq]
    exact List.mem_map_of_mem hx
  have howner : .ofTarget x.target ∈ db.entityRows := hwhole.owned _ hrow
  rw [entityRows, h.entities, Table.rows_map, List.mem_map] at howner
  obtain ⟨t, ht, heq⟩ := howner
  exact ofTarget_inj.mp heq ▸ ht

/-- The identifiers that are read of a target's sessions are those of the
census. -/
theorem Shows.sessionIdsOf_eq_ok {ids : List SessionId} (h : db.Shows c)
    (hids : db.sessionIdsOf t = .ok ids) : ids = c.idsOf t := by
  obtain ⟨rows, hrows, hread⟩ := Except.bind_eq_ok.mp hids
  obtain ⟨-, hrows⟩ := understood_eq_ok.mp hrows
  obtain rfl := Except.ok.inj hrows
  have hmap : ((c.sessions.rows.filter fun x => x.target == t).map SessionRow.ofSession).mapM
      (fun r => (return ⟨← r.id.read 0 "id"⟩ : Except Fault SessionId)) = .ok (c.idsOf t) := by
    rw [List.mapM_map]
    refine Except.mapM_eq_ok fun x _ => ?_
    simp only [Function.comp_def, SessionRow.ofSession, Cell.read_ofString, Except.ok_bind]
    rfl
  rw [h.sessions, Table.rows_map, List.filter_map] at hread
  simp only [Function.comp_def, owner_beq_ofTarget] at hread
  exact Except.ok.inj (hread.symm.trans hmap)

/-! ### Changing rows -/

theorem getD_map {ρ κ : Type} [Ord κ] {key : ρ → κ} {f : Table ρ key → Table ρ key}
    (o : Option (Table ρ key)) (h : o = none → f ∅ = ∅) : (o.map f).getD ∅ = f (o.getD ∅) := by
  cases o with
  | none => exact (h rfl).symm
  | some x => rfl

theorem keep_empty {ρ κ : Type} [Ord κ] {key : ρ → κ} (p : ρ → Bool) :
    (∅ : Table ρ key).keep p = ∅ := rfl

theorem Shows.withEntity (h : db.Shows c) (he : db.entities.isSome) (t : Target) :
    (db.withEntity (.ofTarget t)).Shows { c with entities := c.entities.insert t } where
  entities := by
    have hsome : db.entities ≠ none := Option.isSome_iff_ne_none.mp he
    rw [Database.withEntity, getD_map _ fun hnone => absurd hnone hsome, h.entities,
      Table.insert_map]
  sessions := h.sessions

theorem Shows.withSession (h : db.Shows c) (hs : db.sessions.isSome) (x : Session) :
    (db.withSession (.ofSession x)).Shows { c with sessions := c.sessions.insert x } where
  entities := h.entities
  sessions := by
    have hsome : db.sessions ≠ none := Option.isSome_iff_ne_none.mp hs
    rw [Database.withSession, getD_map _ fun hnone => absurd hnone hsome, h.sessions,
      Table.insert_map]

theorem Shows.withoutSessions (h : db.Shows c) {p : SessionRow → Bool} {q : Session → Bool}
    (hp : ∀ x ∈ c.sessions.rows, p (.ofSession x) = !q x) :
    (db.withoutSessions p).Shows { c with sessions := c.sessions.keep q } where
  entities := h.entities
  sessions := by
    have hkeep : (c.sessions.keep fun x => !p (.ofSession x)) = c.sessions.keep q :=
      Table.keep_congr fun x hx => by rw [hp x hx, Bool.not_not]
    rw [Database.withoutSessions, getD_map _ fun _ => keep_empty _, h.sessions, Table.keep_map,
      hkeep]

/-- An entity goes with all its sessions. -/
theorem Shows.withoutEntities (h : db.Shows c)
    (howned : ∀ x ∈ c.sessions.rows, x.target ∈ c.entities.rows) {p : EntityRow → Bool}
    (hp : ∀ t', p (.ofTarget t') = (t' == t)) : (db.withoutEntities p).Shows (c.without t) where
  entities := by
    have hkeep : (c.entities.keep fun t' => !p (.ofTarget t')) = c.entities.erase t :=
      Table.ext_of_mem fun t' => by simp [hp]
    rw [Database.withoutEntities, getD_map _ fun _ => keep_empty _, h.entities, Table.keep_map,
      hkeep]
    rfl
  sessions := by
    -- no session is spared for want of its entity
    have hkeep : (c.sessions.keep fun x => !(p (SessionRow.ofSession x).owner &&
        (db.entities.getD ∅).contains (SessionRow.ofSession x).owner)) =
        c.sessions.keep fun x => x.target != t := by
      refine Table.keep_congr fun x hx => ?_
      have howner : c.entities.contains x.target = true :=
        Table.contains_iff.mpr ⟨_, howned x hx, rfl⟩
      rw [owner_ofSession, hp, h.contains_entities, howner, Bool.and_true]
      rfl
    rw [Database.withoutEntities, getD_map _ fun _ => keep_empty _, h.sessions, Table.keep_map,
      hkeep]
    rfl

theorem Shows.setBacking (h : db.Shows c) (k : Kind) (b : Option BackingTable) :
    (db.setBacking k b).Shows c where
  entities := by rw [entities_setBacking, h.entities]
  sessions := by rw [sessions_setBacking, h.sessions]

theorem Shows.withoutBacking (h : db.Shows c)
    (howned : ∀ x ∈ c.sessions.rows, x.target ∈ c.entities.rows) (t : Target) :
    (db.withoutBacking t.kind (.ofString t.id)).Shows (c.without t) :=
  (h.setBacking t.kind _).withoutEntities howned (MemoryStore.reference_ofTarget t)

end Database

/-! ### What operations do -/

/-- The store of an operation is that of the call that it makes in the end. -/
theorem FileStore.run_work_store (a : Access) (now : Instant) (db : Database) (op : Operation) :
    (run a now db op).store = (run a now db op.work).store := by
  cases op with
  | ensureRegistered t =>
      rw [Operation.work, run, run, Outcome.store_map, Outcome.store_map, Outcome.store_ensuring]
  | _ => rfl

theorem Entry.deed_error (now : Instant) (op : Operation) (e : RegistryError) :
    Entry.deed ⟨now, op, .error e⟩ = .none := by
  cases op <;> rfl

theorem Operation.work_work (op : Operation) : op.work.work = op.work := by
  cases op <;> rfl

namespace FileStore

variable {a : Access} {now : Instant} {db db' : Database} {op : Operation} {x : Answer}
  {c : Census} {t : Target}

/-- Where a backing record is missing, so is its entity. -/
theorem contains_of_missing (h : db.Shows c) (hwhole : db.Whole)
    (absent : .ofString t.id ∉ db.backingIds t.kind) : c.entities.contains t = false := by
  rw [← Bool.not_eq_true, ← h.mem_entityRows]
  intro ht
  exact absent (Database.isBacked_iff.mp (hwhole.backed _ ht) t.kind rfl)

/-- An operation that succeeds turns the census of the file. -/
theorem Effect.step (h : Effect now db op x db') (hwork : op.work = op) (hwhole : db.Whole)
    (hshows : db.Shows c) : ∃ c', c.Step now (Entry.deed ⟨now, op, .ok x⟩) c' ∧ db'.Shows c' := by
  have howned := hshows.owned hwhole
  cases h with
  | backingAdded t => exact ⟨c, .none, hshows.setBacking _ _⟩
  | backingLeftOut t => exact ⟨c, .none, hshows⟩
  | backingMissed t ids listed absent =>
      have habsent := contains_of_missing hshows hwhole absent
      obtain ⟨hself, hnone⟩ := Census.without_eq_self howned habsent
      refine ⟨_, .removed (.empty t) habsent.symm hnone.symm, ?_⟩
      rw [CascadeReport.empty, hself]
      exact hshows
  | backingDeleted t ids listed present =>
      refine ⟨_, .removed _ (hshows.contains_entities t) (hshows.sessionIdsOf_eq_ok listed), ?_⟩
      exact hshows.withoutBacking howned t
  | entityDeleted t ids listed =>
      refine ⟨_, .removed _ (hshows.contains_entities t) (hshows.sessionIdsOf_eq_ok listed), ?_⟩
      exact hshows.withoutEntities howned fun t' => ofTarget_beq t' t
  | registered op t asked table free backed =>
      obtain rfl | rfl := asked
      · have hfree : c.entities.contains t = false :=
          Bool.eq_false_iff.mpr fun ht => free (hshows.mem_entityRows.mpr ht)
        exact ⟨_, .registered t hfree, hshows.withEntity table t⟩
      · cases hwork
  | ensured t => cases hwork
  | sessionMade new table free owned =>
      have hfree : c.sessions.contains new.id.key = false := by
        rw [← hshows.contains_sessions, Table.contains_eq_false_iff]
        exact free
      exact ⟨_, .created new hfree, hshows.withSession table _⟩
  | sessionDeleted id present =>
      have hthere : c.sessions.contains id.key = true := by
        rw [← hshows.contains_sessions, Table.contains_iff]
        exact present
      refine ⟨_, .deleted id hthere, hshows.withoutSessions fun y _ => ?_⟩
      -- the row that goes is told by its key in the census and by its cell in the file
      have hcell : compare (SessionRow.ofSession y).id (.ofString id.text) = .eq ↔
          (SessionRow.ofSession y).id = .ofString id.text := Std.LawfulEqCmp.compare_eq_iff_eq
      rw [Bool.eq_iff_iff, beq_iff_eq, ← hcell]
      simp only [bne, Bool.not_not, beq_iff_eq]
      rfl
  | sessionsDeleted t =>
      refine ⟨_, .emptied t, hshows.withoutSessions fun y _ => ?_⟩
      rw [owner_beq_ofTarget, bne, Bool.not_not]
  | looked op x looks =>
      have hnone : Entry.deed ⟨now, op, .ok x⟩ = .none := by
        cases op <;> first | rfl | cases looks
      rw [hnone]
      exact ⟨c, .none, hshows⟩

/-- Every call turns the census of the file as its answer says. -/
theorem run_step (hwhole : db.Whole) (hshows : db.Shows c) (a : Access) (now : Instant)
    (op : Operation) :
    ∃ c', c.Step now (Entry.deed ⟨now, op.work, (run a now db op.work).answer⟩) c' ∧
      (run a now db op).store.Shows c' := by
  rw [run_work_store]
  cases hanswer : (run a now db op.work).answer with
  | error e =>
      rw [Entry.deed_error, run_store_of_error hanswer]
      exact ⟨c, .none, hshows⟩
  | ok x => exact (run_effect hanswer).step op.work_work hwhole hshows

/-! ### What operations are told -/

end FileStore

namespace Database

variable {db : Database} {c : Census} {t : Target} {id : SessionId}

/-- The entity of a census stands on a record, and so on its table. -/
theorem Shows.has_of_entity (h : db.Shows c) (hwhole : db.Whole)
    (ht : c.entities.contains t = true) : db.has (.ofKind t.kind) = true :=
  has_of_mem_backingIds
    (isBacked_iff.mp (hwhole.backed _ (h.mem_entityRows.mpr ht)) t.kind rfl)

/-- A registration is understood only if backing records can be looked up. -/
theorem has_of_insertEntity_understood (h : db.refusal {} .insertEntity = none) :
    db.has .users = true := by
  have hobstacle : db.outline.obstacle {} .insertEntity = none := by simpa [refusal] using h
  obtain ⟨-, hbacking⟩ := orElse_eq_none.mp hobstacle
  exact brokenBacking_eq_none.mp hbacking .user

/-- A file that a store finds ready to be asked, with the census that it shows. -/
structure Answers (db : Database) (c : Census) : Prop where
  regular : db.Regular true
  entities : db.has .entities = true
  sessions : db.has .sessions = true
  paired : db.Paired
  shows : db.Shows c

/-- A file that keeps records of some kind is ready. -/
theorem Answers.ready (h : db.Answers c) {k : Kind} (hk : db.has (.ofKind k) = true) :
    db.Ready where
  backing k' := by
    have hbots : db.has .bots = true := by
      cases k with
      | bot => exact hk
      | user => exact h.paired.trans hk
    cases k' with
    | bot => exact hbots
    | user => exact h.paired.symm.trans hbots
  entities := h.entities
  sessions := h.sessions
  unblocked := h.regular.unblocked
  provisioned := h.regular.provisioned

end Database

namespace FileStore

variable {a : Access} {now : Instant} {db : Database} {c : Census} {t : Target} {id : SessionId}

theorem lookup_answer (h : db.Answers c) (hr : a.reads = true) (now : Instant) (t : Target) :
    (run a now db (.lookup t)).answer = .ok (.found (c.entity? t)) := by
  have hread : db.entityPresent t = .ok (c.entities.contains t) := by
    rw [Database.entityPresent, Database.understood_eq (Database.refusal_readEntities h.entities),
      h.shows.contains_entities]
  rw [run, reading_of_ok hr hread]
  cases ht : c.entities.contains t with
  | true =>
      rw [Census.entity?_eq_some ht]
      rfl
  | false =>
      rw [Census.entity?_eq_none.mpr ht]
      rfl

/-- A session is read as its row stands for. -/
theorem getSession_answer (h : db.Answers c) (hr : a.reads = true) (now : Instant)
    (id : SessionId) :
    (run a now db (.getSession id)).answer =
      (((c.sessions.find? id.key).map SessionText.ofSession).mapM SessionText.toSession).map
        .foundSession := by
  have hread : db.sessionText? id = .ok ((c.sessions.find? id.key).map .ofSession) := by
    rw [Database.sessionText?, Database.understood_eq (Database.refusal_readSessions h.sessions),
      h.shows.find?_sessions]
    cases c.sessions.find? id.key with
    | none => rfl
    | some x =>
        rw [Option.map_some, Option.mapM_some, read_ofSession]
        rfl
  rw [run, getSession, reading_of_ok hr hread]
  rfl

/-- A registration in a file that answers: it is refused for want of tables of
backing records, or made as its rows tell. -/
theorem register_answer (h : db.Answers c) (ha : a.Writes) (now : Instant) (t : Target) :
    (c.entities.contains t = false ∧ db.has .users = false ∧
        ∃ f, (run a now db (.register t)).answer = .error (.ofFault f)) ∨
      db.Ready ∧ (run a now db (.register t)).answer =
        if c.entities.contains t then .error (.duplicateEntity t)
        else if db.hasBackingRow t.kind (.ofString t.id) then .ok (.entity t)
        else .error (.unknownBacking t) := by
  cases husers : db.has .users with
  | false =>
      refine .inl ⟨Bool.eq_false_iff.mpr fun ht => ?_, rfl, ?_⟩
      · have hready := h.ready (h.shows.has_of_entity h.regular.toWhole ht)
        exact Bool.false_ne_true (husers.symm.trans (hready.backing .user))
      · cases hrefusal : db.refusal {} .insertEntity with
        | none =>
            rw [Database.has_of_insertEntity_understood hrefusal] at husers
            cases husers
        | some f =>
            rw [run, register_of_refusal ha.begins hrefusal]
            exact ⟨f, rfl⟩
  | true =>
      have hready : db.Ready := h.ready (k := .user) husers
      refine .inr ⟨hready, ?_⟩
      rw [run, register_eq ha hready, h.shows.contains_entities]
      split_ifs <;> rfl

/-- A new session in a file that answers: its identifier is looked at before its
owner. -/
theorem createSession_answer (h : db.Answers c) (ha : a.Writes) (now : Instant)
    (new : NewSession) :
    (run a now db (.createSession new)).answer =
      if c.sessions.contains new.id.key then .error (.duplicateSession new.id)
      else if c.entities.contains new.target then .ok (.session (new.toSession now))
      else .error (.unknownEntity new.target) := by
  have howner : db.hasEntityRow (.ofTarget new.target) = c.entities.contains new.target := by
    rw [Bool.eq_iff_iff, Database.hasEntityRow_iff, h.shows.mem_entityRows]
  rw [run, createSession_eq ha h.sessions h.entities (h.regular.isBlocked_eq_false _ _),
    h.shows.contains_sessions, howner]
  split_ifs <;> rfl

/-- A file that tells of a backing record has all tables. -/
theorem backingExists_answer (h : db.Answers c) (hr : a.reads = true)
    (htold : (run a now db (.backingExists t)).answer = .ok (.flag true)) :
    db.Ready ∧ db.hasBackingRow t.kind (.ofString t.id) = true := by
  have hpresent : db.backingPresent t = .ok true := by
    obtain ⟨b, hb, hflag⟩ := Except.map_eq_ok.mp htold
    obtain rfl := Answer.flag.inj hflag
    rw [reading, Access.read, hr, if_pos rfl] at hb
    exact Except.mapError_eq_ok.mp hb
  obtain ⟨hu, hrow⟩ := Database.understood_eq_ok.mp hpresent
  have hhas : db.has (.ofKind t.kind) = true :=
    Database.has_of_refusal_eq_none (n := .ofKind t.kind) rfl hu
  exact ⟨h.ready hhas, Except.ok.inj hrow⟩

/-- A session is deleted if and only if it is there. -/
theorem deleteSession_answer (h : db.Answers c) (ha : a.Writes) (now : Instant) (id : SessionId) :
    (run a now db (.deleteSession id)).answer = .ok .done ↔
      c.sessions.contains id.key = true := by
  constructor
  · intro hanswer
    obtain ⟨c', hstep, -⟩ := run_step h.regular.toWhole h.shows a now (.deleteSession id)
    have hdeleted : c.Step now (.deleted id) c' := by
      have hdeed : (Entry.mk now (.deleteSession id) (.ok .done)).deed = .deleted id := rfl
      rw [← hdeed, ← hanswer]
      exact hstep
    cases hdeleted with
    | deleted id present => exact present
  · intro hthere
    -- a session is owned, and its entity stands on a record
    obtain ⟨x, hx, -⟩ := Table.contains_iff.mp hthere
    have howner : c.entities.contains x.target = true :=
      Table.contains_iff.mpr ⟨_, h.shows.owned h.regular.toWhole x hx, rfl⟩
    have hready := h.ready (h.shows.has_of_entity h.regular.toWhole howner)
    rw [run, deleteSession_eq ha hready, h.shows.contains_sessions, hthere]
    rfl

/-- A report names the sessions of its target, and its entity if that was
there. -/
theorem report_of_effect {op : Operation} {r : CascadeReport} {db' : Database}
    (h : Effect now db op (.report r) db') (hop : op = .deleteBacking t ∨ op = .backingDeleted t)
    (hwhole : db.Whole) (hshows : db.Shows c) :
    r.target = t ∧ r.entityRemoved = c.entities.contains t ∧ r.sessionsRemoved = c.idsOf t := by
  cases h with
  | backingMissed t' ids listed absent =>
      obtain rfl : t' = t := by
        rcases hop with hop | hop <;> cases hop
        rfl
      have habsent := contains_of_missing hshows hwhole absent
      obtain ⟨-, hnone⟩ := Census.without_eq_self (hshows.owned hwhole) habsent
      exact ⟨rfl, habsent.symm, hnone.symm⟩
  | backingDeleted t' ids listed present =>
      obtain rfl : t' = t := by
        rcases hop with hop | hop <;> cases hop
        rfl
      exact ⟨rfl, hshows.contains_entities _, hshows.sessionIdsOf_eq_ok listed⟩
  | entityDeleted t' ids listed =>
      obtain rfl : t' = t := by
        rcases hop with hop | hop <;> cases hop
        rfl
      exact ⟨rfl, hshows.contains_entities _, hshows.sessionIdsOf_eq_ok listed⟩
  | looked op x looks => rcases hop with rfl | rfl <;> cases looks

/-- The count of an emptying is that of the sessions of its target. -/
theorem count_of_effect {n : Nat} {db' : Database}
    (h : Effect now db (.deleteAllSessions t) (.count n) db') (hshows : db.Shows c) :
    n = (c.idsOf t).length := by
  cases h with
  | sessionsDeleted t =>
      rw [hshows.sessionRows_eq, List.countP_map, Census.idsOf, List.length_map,
        ← List.countP_eq_length_filter]
      exact List.countP_congr fun x _ => by simp only [Function.comp_apply, owner_beq_ofTarget]
  | looked op x looks => cases looks

/-- Every question is answered by the census of the file. -/
theorem census_tells (h : db.Answers c) (ha : a.Writes) (hr : a.reads = true) (now : Instant) :
    c.Tells fun op => some (run a now db op).answer where
  lookup t := congrArg some (lookup_answer h hr now t)
  absent id := by
    rw [Census.owner?, Option.map_eq_none_iff, getSession_answer h hr]
    cases c.sessions.find? id.key with
    | none => simp [Except.map, pure, Except.pure]
    | some x =>
        -- what is read of a row is a session or an error
        rw [Option.map_some, Option.mapM_some]
        cases (SessionText.ofSession x).toSession <;> simp [Except.map]
  found hdated id := by
    have hread : ∀ y, c.sessions.find? id.key = some y → y.createdAt.InEra := by
      intro y hy
      exact hdated y (Table.find?_eq_some_iff.mp hy).1
    refine ⟨c.sessions.find? id.key, ?_, rfl⟩
    rw [getSession_answer h hr, MemoryStore.optionMapM_toSession hread]
    rfl
  duplicate t := by
    rw [Census.entity?_ne_none]
    obtain ⟨hnone, -, f, hf⟩ | ⟨-, hanswer⟩ := register_answer h ha now t
    · rw [hf, hnone]
      simp only [Option.some.injEq, Except.error.injEq, Bool.false_eq_true, iff_false]
      rw [RegistryError.ofFault]
      split_ifs <;> simp
    · rw [hanswer]
      split_ifs with ht <;> simp [ht]
  registers t ht hbacked := by
    obtain ⟨hready, hrow⟩ := backingExists_answer h hr (Option.some.inj hbacked)
    obtain ⟨-, husers, -⟩ | ⟨-, hanswer⟩ := register_answer h ha now t
    · exact absurd (husers.symm.trans (hready.backing .user)) Bool.false_ne_true
    · rw [hanswer, Census.entity?_eq_none.mp ht, hrow]
      rfl
  creates new := by
    rw [Ne, Census.entity?_eq_none, Census.owner?_eq_none, createSession_answer h ha]
    cases c.sessions.contains new.id.key with
    | true => simp
    | false => cases c.entities.contains new.target <;> simp
  unregistered new ht hid := by
    rw [createSession_answer h ha, Census.owner?_eq_none.mp hid, Census.entity?_eq_none.mp ht]
    rfl
  deletes id := by
    rw [Census.owner?_ne_none, ← deleteSession_answer h ha now id, Option.some.injEq]
  reports t r hr := by
    have hreport : ∃ op db', Effect now db op (.report r) db' ∧
        (op = .deleteBacking t ∨ op = .backingDeleted t) := by
      rcases hr with hr | hr
      · exact ⟨_, _, run_effect (Option.some.inj hr), .inl rfl⟩
      · exact ⟨_, _, run_effect (Option.some.inj hr), .inr rfl⟩
    obtain ⟨op, db', heffect, hop⟩ := hreport
    obtain ⟨htarget, hentity, hids⟩ := report_of_effect heffect hop h.regular.toWhole h.shows
    rw [hentity, hids]
    exact ⟨htarget, Census.entity?_ne_none.symm, c.idsOf_nodup t, fun id => Census.mem_idsOf⟩
  empties t n hn := by
    have hcount := count_of_effect (run_effect (Option.some.inj hn)) h.shows
    exact ⟨c.idsOf t, hcount.symm, c.idsOf_nodup t, fun id => Census.mem_idsOf⟩

end FileStore

end OwnershipRegistry
