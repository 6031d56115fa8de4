import OwnershipRegistry.Proofs.File.Accounts
import OwnershipRegistry.Proofs.File.Deletable
import OwnershipRegistry.Proofs.Replay

/-!
The log of a store on the file. What an operation that succeeds records is told by
its answer and by whether the file has changed, and an operation that fails records
nothing. Where the ownership chain holds, the records of an operation lead from the
roll of the file before it to that of the file after it, whatever locks are in its
way and whichever tables of backing records are there.
-/

namespace OwnershipRegistry

/-- The sessions of a census with their owners. -/
def Census.members (c : Census) : Table Member Member.key :=
  c.sessions.map Session.member compare_member

theorem Census.members_emptied (c : Census) (t : Target) :
    (c.emptied t).members = c.members.keep fun m => m.owner != t := by
  rw [members, members, Table.keep_map]
  rfl

theorem Census.countP_members (c : Census) (t : Target) :
    c.members.rows.countP (·.owner == t) = (c.idsOf t).length := by
  rw [members, Table.rows_map, List.countP_map, idsOf, List.length_map,
    ← List.countP_eq_length_filter]
  rfl

/-- What an operation that succeeds with an answer records, given whether anything
has changed. -/
def Operation.records (op : Operation) (x : Answer) (changed : Bool) : List Record :=
  match op, x with
  | .insertBacking t, _ => if changed then [.backingAdded t] else []
  | .deleteBacking t, .report r =>
    if r.backingRemoved then [.backingRemoved t r.sessionsRemoved.length] else []
  | .backingDeleted t, .report r =>
    if r.entityRemoved then [.entityRemoved t r.sessionsRemoved.length] else []
  | .register t, _ => [.registered t]
  | .ensureRegistered t, _ => if changed then [.registered t] else []
  | .createSession _, .session s => [.created s.id s.target]
  | .deleteSession id, _ => [.deleted id]
  | .deleteAllSessions t, .count n => [.emptied t n]
  | _, _ => []

namespace Database

/-- The rows of a file are those of a roll. -/
structure Lists (db : Database) (r : Roll) : Prop where
  backing : ∀ k, db.backingIds k = (r.backing k).rows.map .ofString
  entities : db.entityRows = r.entities.rows.map .ofTarget
  sessions : db.sessionRows.map (fun s => (s.id, s.owner)) =
    r.sessions.rows.map fun m => (.ofString m.id.text, .ofTarget m.owner)

/-- The rows of a file are those of a roll and of a census. -/
structure Enrolls (db : Database) (c : Census) (r : Roll) : Prop where
  shows : db.Shows c
  backing : ∀ k, ((db.backing k).getD {}).ids = (r.backing k).map Cell.ofString compare_ofString
  entities : r.entities = c.entities
  sessions : r.sessions = c.members

variable {db db' : Database} {c : Census} {r r' : Roll} {t : Target} {id : SessionId}

/-- A file has one roll at most. -/
theorem Lists.unique (h : db.Lists r) (h' : db.Lists r') : r = r' := by
  have hbacking (k : Kind) : r.backing k = r'.backing k := by
    refine Table.ext ((List.map_inj_right fun a b => Cell.ofString_injective).mp ?_)
    rw [← h.backing k, h'.backing k]
  have hentities : r.entities = r'.entities := by
    refine Table.ext ((List.map_inj_right fun a b => ofTarget_inj.mp).mp ?_)
    rw [← h.entities, h'.entities]
  have hsessions : r.sessions = r'.sessions := by
    refine Table.ext ((List.map_inj_right fun a b hab => ?_).mp (h.sessions.symm.trans h'.sessions))
    obtain ⟨⟨ida⟩, owner⟩ := a
    obtain ⟨⟨idb⟩, owner'⟩ := b
    obtain ⟨hid, howner⟩ := Prod.mk.inj hab
    obtain rfl := Cell.ofString_injective hid
    obtain rfl := ofTarget_inj.mp howner
    rfl
  have hbots : r.bots = r'.bots := hbacking .bot
  have husers : r.users = r'.users := hbacking .user
  cases r
  cases r'
  simp_all only

theorem Enrolls.lists (h : db.Enrolls c r) : db.Lists r where
  backing k := by
    rw [backingIds, h.backing]
    rfl
  entities := by
    rw [entityRows, h.shows.entities, h.entities]
    rfl
  sessions := by
    rw [h.shows.sessionRows_eq, h.sessions, Census.members, Table.rows_map, List.map_map,
      List.map_map]
    rfl

theorem Enrolls.held_eq (h : db.Enrolls c r) (t : Target) : r.held t = (c.idsOf t).length := by
  rw [Roll.held, h.sessions, Census.countP_members]

/-! ### Changes of the rows and of the roll -/

theorem Enrolls.setBacking (h : db.Enrolls c r) {b : Option BackingTable} {k : Kind}
    {ids : Table String octets} (hb : (b.getD {}).ids = ids.map Cell.ofString compare_ofString) :
    (db.setBacking k b).Enrolls c (r.setBacking k ids) where
  shows := h.shows.setBacking k b
  backing k' := by
    rw [backing_setBacking, Roll.backing_setBacking]
    split_ifs with hk
    · exact hb
    · exact h.backing k'
  entities := (Roll.entities_setBacking _ _ _).trans h.entities
  sessions := (Roll.sessions_setBacking _ _ _).trans h.sessions

theorem Enrolls.withBackingRow (h : db.Enrolls c r) (hb : (db.backing t.kind).isSome) :
    (db.withBackingRow t.kind (.ofString t.id)).Enrolls c (r.follow (.backingAdded t)) := by
  obtain ⟨b, hb⟩ := Option.isSome_iff_exists.mp hb
  have hold := h.backing t.kind
  rw [hb, Option.getD_some] at hold
  refine h.setBacking ?_
  rw [hb, Option.map_some, Option.getD_some, BackingTable.ids_add, hold, Table.insert_map]

theorem Enrolls.withEntity (h : db.Enrolls c r) (he : db.entities.isSome) (t : Target) :
    (db.withEntity (.ofTarget t)).Enrolls { c with entities := c.entities.insert t }
      (r.follow (.registered t)) where
  shows := h.shows.withEntity he t
  backing k := by cases k <;> [exact h.backing .bot; exact h.backing .user]
  entities := congrArg (Table.insert · t) h.entities
  sessions := h.sessions

theorem Enrolls.withSession (h : db.Enrolls c r) (hs : db.sessions.isSome) (x : Session) :
    (db.withSession (.ofSession x)).Enrolls { c with sessions := c.sessions.insert x }
      (r.follow (.created x.id x.target)) where
  shows := h.shows.withSession hs x
  backing k := by cases k <;> [exact h.backing .bot; exact h.backing .user]
  entities := h.entities
  sessions := by
    show r.sessions.insert x.member = _
    rw [h.sessions, Census.members, Table.insert_map]
    rfl

theorem Enrolls.withoutSession (h : db.Enrolls c r) (id : SessionId) :
    (db.withoutSessions (·.id == .ofString id.text)).Enrolls
      { c with sessions := c.sessions.erase id.key } (r.follow (.deleted id)) where
  shows := h.shows.withoutSessions fun y _ => by
    -- the row that goes is told by its key in the census and by its cell in the file
    have hcell : compare (SessionRow.ofSession y).id (.ofString id.text) = .eq ↔
        (SessionRow.ofSession y).id = .ofString id.text := Std.LawfulEqCmp.compare_eq_iff_eq
    rw [Bool.eq_iff_iff, beq_iff_eq, ← hcell]
    simp only [bne, Bool.not_not, beq_iff_eq]
    rfl
  backing k := by cases k <;> [exact h.backing .bot; exact h.backing .user]
  entities := h.entities
  sessions := by
    show r.sessions.erase id.key = _
    rw [h.sessions]
    exact Table.erase_map (f := Session.member) (h := compare_member) (fun _ => rfl) c.sessions

theorem Enrolls.emptied (h : db.Enrolls c r) (t : Target) :
    (db.withoutSessions (·.owner == .ofTarget t)).Enrolls (c.emptied t) (r.emptied t) where
  shows := h.shows.withoutSessions fun y _ => by rw [owner_beq_ofTarget, bne, Bool.not_not]
  backing k := by cases k <;> [exact h.backing .bot; exact h.backing .user]
  entities := h.entities
  sessions := by
    rw [Census.members_emptied, ← h.sessions]
    rfl

/-- An entity goes with all its sessions. -/
theorem Enrolls.without (h : db.Enrolls c r)
    (howned : ∀ x ∈ c.sessions.rows, x.target ∈ c.entities.rows) {p : EntityRow → Bool}
    (hp : ∀ t', p (.ofTarget t') = (t' == t)) :
    (db.withoutEntities p).Enrolls (c.without t) (r.without t) where
  shows := h.shows.withoutEntities howned hp
  backing k := by
    rw [Roll.backing_without]
    cases k <;> [exact h.backing .bot; exact h.backing .user]
  entities := congrArg (Table.erase · t) h.entities
  sessions := by
    show _ = (c.emptied t).members
    rw [Census.members_emptied, ← h.sessions]
    rfl

theorem Enrolls.withoutBacking (h : db.Enrolls c r)
    (howned : ∀ x ∈ c.sessions.rows, x.target ∈ c.entities.rows) (t : Target) (n : Nat) :
    (db.withoutBacking t.kind (.ofString t.id)).Enrolls (c.without t)
      (r.follow (.backingRemoved t n)) := by
  refine (h.setBacking ?_).without howned (MemoryStore.reference_ofTarget t)
  have herase : ((r.backing t.kind).map Cell.ofString compare_ofString : Table Cell id).erase
      (.ofString t.id) =
        ((r.backing t.kind).erase (octets t.id)).map Cell.ofString compare_ofString :=
    Table.erase_map (f := Cell.ofString) (h := compare_ofString)
      (fun i => compare_ofString i t.id) (r.backing t.kind)
  rw [← herase, ← h.backing]
  cases db.backing t.kind with
  | none => rfl
  | some b => exact b.ids_remove _

end Database

namespace FileStore

open Database

variable {a : Access} {now : Instant} {db db' : Database} {op : Operation} {x : Answer}
  {c : Census} {r : Roll}

/-! ### What operations record -/

/-- A transaction that succeeds has the events that its answer calls for. -/
theorem events_writing_of_ok {α : Type} {f : Database → Except RegistryError (Database × α)}
    {events : α → List Event} {y : α} (h : (writing a db f events).answer = .ok y) :
    (writing a db f events).events = events y := by
  unfold writing at h ⊢
  split
  · rename_i hwrite
    rw [hwrite] at h
    rw [Except.ok.inj h]
  · rename_i hwrite
    rw [hwrite] at h
    cases h

theorem records_lockEvents {α : Type} (x : Except RegistryError α) :
    records (lockEvents x) = [] := by
  unfold lockEvents
  split <;> rfl

theorem records_reading {α : Type} (f : Database → Except Fault α) :
    records (reading a db f).events = [] :=
  records_lockEvents _

/-- A transaction that fails records nothing. -/
theorem records_writing_of_error {α : Type} {f : Database → Except RegistryError (Database × α)}
    {events : α → List Event} {e : RegistryError} (h : (writing a db f events).answer = .error e) :
    records (writing a db f events).events = [] := by
  unfold writing at h ⊢
  split
  · rename_i hwrite
    rw [hwrite] at h
    cases h
  · exact records_lockEvents _

theorem withBackingRow_ne {k : Kind} {id : Cell} (table : (db.backing k).isSome)
    (free : id ∉ db.backingIds k) : db.withBackingRow k id ≠ db := by
  intro h
  have hmem : id ∈ (db.withBackingRow k id).backingIds k :=
    (mem_backingIds_withBackingRow table free).mpr (.inr ⟨rfl, rfl⟩)
  rw [h] at hmem
  exact free hmem

theorem withEntity_ne {row : EntityRow} (table : db.entities.isSome)
    (free : row ∉ db.entityRows) : db.withEntity row ≠ db := by
  intro h
  have hmem : row ∈ (db.withEntity row).entityRows :=
    (mem_entityRows_withEntity table free).mpr (.inl rfl)
  rw [h] at hmem
  exact free hmem

open Classical in
theorem records_insertBacking {t : Target} {y : Bool} (h : (insertBacking a db t).answer = .ok y) :
    records (insertBacking a db t).events =
      if (insertBacking a db t).store ≠ db then [.backingAdded t] else [] := by
  have hevents : (insertBacking a db t).events = if y then [.backingInserted t] else [] :=
    events_writing_of_ok h
  have h := writing_eq_ok h
  rw [hevents]
  split at h
  · rename_i hins
    obtain ⟨hstore, rfl⟩ := Prod.mk.inj (Except.ok.inj h)
    obtain ⟨c, b, -, hb, -, hfree, rfl⟩ := insertBacking_eq_ok (change_eq_ok hins)
    have htable : (db.backing t.kind).isSome := by rw [hb, Option.isSome_some]
    have hne : (insertBacking a db t).store ≠ db := hstore ▸ withBackingRow_ne htable hfree
    rw [if_pos hne, if_pos rfl, records_cons]
    rfl
  · split_ifs at h
    obtain ⟨hstore, rfl⟩ := Prod.mk.inj (Except.ok.inj h)
    have hsame : (insertBacking a db t).store = db := hstore.symm
    rw [if_neg (not_not_intro hsame)]
    rfl

theorem records_register_of_error {t : Target} {e : RegistryError}
    (h : (register a db t).answer = .error e) : records (register a db t).events = [] := by
  rw [register, Outcome.events_after, records_append]
  exact records_writing_of_error h

theorem records_register {t t' : Target} (h : (register a db t).answer = .ok t') :
    records (register a db t).events = [.registered t] ∧ (register a db t).store ≠ db := by
  -- a registration does not look at the instant
  obtain ⟨rfl, heffect⟩ :=
    (register_effect (.inl rfl) h : t' = t ∧
      Effect .epoch db (.register t) (.entity t) (register a db t).store)
  constructor
  · have hevents := events_writing_of_ok h
    rw [register, Outcome.events_after, hevents]
    simp only [List.cons_append, List.nil_append, records_cons]
    rfl
  · generalize (register a db t').store = db' at heffect ⊢
    cases heffect with
    | registered _ _ asked table free backed => exact withEntity_ne table free
    | looked _ _ looks => cases looks

open Classical in
/-- A target that was registered already is not recorded again. -/
theorem records_ensuring {t t' : Target}
    (h : ((register a db t).ensuring t).answer = .ok t') :
    records (register a db t).events =
      if decide ((register a db t).store ≠ db) then [.registered t] else [] := by
  unfold Outcome.ensuring at h
  split at h
  · rename_i hduplicate
    have hsame : (register a db t).store = db := register_store_of_error hduplicate
    rw [if_neg (by simpa using hsame)]
    exact records_register_of_error hduplicate
  · obtain ⟨hrecords, hne⟩ := records_register h
    rw [if_pos (decide_eq_true hne)]
    exact hrecords

theorem records_deleteSession {id : SessionId} {y : Unit}
    (h : (deleteSession a db id).answer = .ok y) :
    records (deleteSession a db id).events = [.deleted id] := by
  obtain ⟨n, hn, hjudged⟩ := Except.bind_eq_ok.mp h
  have hevents := events_writing_of_ok hn
  rw [deleteSession, Outcome.events_judge, hevents]
  split at hjudged
  · cases hjudged
  · rename_i hsome
    rw [if_neg hsome, records_cons]
    rfl

theorem records_backingDeleted {t : Target} {r : CascadeReport}
    (h : (backingDeleted a db t).answer = .ok r) :
    records (backingDeleted a db t).events =
      if r.entityRemoved then [.entityRemoved t r.sessionsRemoved.length] else [] := by
  have hevents := events_writing_of_ok h
  rw [backingDeleted, Outcome.events_after, records_append, hevents, records_cons]
  -- a backing record that is still there is warned of, and not recorded
  split <;> split_ifs <;> rfl

open Classical in
/-- What an operation that succeeds records. -/
theorem run_records (h : (run a now db op).answer = .ok x) :
    records (run a now db op).events =
      op.records x (decide ((run a now db op).store ≠ db)) := by
  cases op with
  | insertBacking t =>
      obtain ⟨y, hy, rfl⟩ := Except.map_eq_ok.mp h
      show records (insertBacking a db t).events =
        if decide ((insertBacking a db t).store ≠ db) = true then _ else _
      simp only [records_insertBacking hy, decide_eq_true_eq]
  | deleteBacking t =>
      obtain ⟨r, hr, rfl⟩ := Except.map_eq_ok.mp h
      have hevents := events_writing_of_ok hr
      rw [run, Outcome.events_map, deleteBacking, hevents]
      show _ = if r.backingRemoved then _ else _
      split_ifs
      · exact records_cons _ _
      · rfl
  | backingDeleted t =>
      obtain ⟨r, hr, rfl⟩ := Except.map_eq_ok.mp h
      exact records_backingDeleted hr
  | register t =>
      obtain ⟨t', ht, rfl⟩ := Except.map_eq_ok.mp h
      exact (records_register ht).1
  | ensureRegistered t =>
      obtain ⟨t', ht, rfl⟩ := Except.map_eq_ok.mp h
      rw [run, Outcome.events_map, Outcome.events_ensuring, Outcome.store_map,
        Outcome.store_ensuring]
      exact records_ensuring ht
  | createSession new =>
      obtain ⟨s, hs, rfl⟩ := Except.map_eq_ok.mp h
      have hevents := events_writing_of_ok hs
      rw [run, Outcome.events_map, createSession, hevents, records_cons]
      rfl
  | deleteSession id =>
      obtain ⟨y, hy, rfl⟩ := Except.map_eq_ok.mp h
      exact records_deleteSession hy
  | deleteAllSessions t =>
      obtain ⟨n, hn, rfl⟩ := Except.map_eq_ok.mp h
      have hevents := events_writing_of_ok hn
      rw [run, Outcome.events_map, deleteAllSessions, hevents, records_cons]
      rfl
  | backingExists t | lookup t | listEntities | getSession id | listSessions t | verify =>
      obtain ⟨y, hy, rfl⟩ := Except.map_eq_ok.mp h
      exact records_reading _

/-- An operation that fails records nothing. -/
theorem run_records_of_error {e : RegistryError} (h : (run a now db op).answer = .error e) :
    records (run a now db op).events = [] := by
  cases op with
  | insertBacking t => exact records_writing_of_error (Except.map_eq_error.mp h)
  | deleteBacking t => exact records_writing_of_error (Except.map_eq_error.mp h)
  | backingDeleted t =>
      have h : (backingDeleted a db t).answer = .error e := Except.map_eq_error.mp h
      have hrecords := records_writing_of_error h
      rw [run, Outcome.events_map, backingDeleted, Outcome.events_after, records_append, hrecords]
      split <;> rfl
  | register t => exact records_register_of_error (Except.map_eq_error.mp h)
  | ensureRegistered t =>
      obtain ⟨h, -⟩ := Outcome.answer_ensuring_eq_error.mp (Except.map_eq_error.mp h)
      rw [run, Outcome.events_map, Outcome.events_ensuring]
      exact records_register_of_error h
  | createSession new => exact records_writing_of_error (Except.map_eq_error.mp h)
  | deleteSession id =>
      have h : (deleteSession a db id).answer = .error e := Except.map_eq_error.mp h
      rw [run, Outcome.events_map, deleteSession, Outcome.events_judge]
      rcases Except.bind_eq_error.mp h with h | ⟨n, hn, hjudged⟩
      · exact records_writing_of_error h
      -- nothing was deleted, which is only found an error afterwards
      · rw [events_writing_of_ok hn]
        split at hjudged
        · rename_i hnone
          rw [if_pos hnone]
          rfl
        · cases hjudged
  | deleteAllSessions t => exact records_writing_of_error (Except.map_eq_error.mp h)
  | backingExists t | lookup t | listEntities | getSession id | listSessions t | verify =>
      exact records_reading _

/-! ### Where the records lead -/

open Classical in
/-- An operation that succeeds leads from roll to roll, if the log has its records. -/
theorem Effect.leads (h : Effect now db op x db') (hwhole : db.Whole) (hroll : db.Enrolls c r)
    {log : List Event} (hlog : records log = op.records x (decide (db' ≠ db))) :
    ∃ c' r', db'.Enrolls c' r' ∧ Leads log r r' := by
  have howned := hroll.shows.owned hwhole
  cases h with
  | backingAdded t table free =>
      rw [Operation.records, if_pos (decide_eq_true (withBackingRow_ne table free))] at hlog
      exact ⟨c, _, hroll.withBackingRow table, .of_record hlog nofun⟩
  | backingLeftOut t =>
      rw [Operation.records, if_neg (by simp)] at hlog
      exact ⟨c, r, hroll, .of_records_nil hlog r⟩
  | backingMissed t ids listed absent => exact ⟨c, r, hroll, .of_records_nil hlog r⟩
  | backingDeleted t ids listed present =>
      have hids : ids.length = r.held t := by
        rw [hroll.shows.sessionIdsOf_eq_ok listed, hroll.held_eq]
      refine ⟨_, _, hroll.withoutBacking howned t ids.length, .of_record hlog fun n hn => ?_⟩
      obtain rfl := Option.some.inj hn
      rw [hids, ← r.size_emptied t, Roll.follow, Roll.without, Roll.emptied,
        Roll.sessions_setBacking, Roll.emptied]
  | entityDeleted t ids listed =>
      have hids : ids = c.idsOf t := hroll.shows.sessionIdsOf_eq_ok listed
      have hwithout : (db.withoutEntities (· == .ofTarget t)).Enrolls (c.without t) (r.without t) :=
        hroll.without howned fun t' => ofTarget_beq t' t
      cases hentity : c.entities.contains t with
      | true =>
          rw [Operation.records, if_pos ((hroll.shows.contains_entities t).trans hentity)] at hlog
          refine ⟨_, _, hwithout, .of_record hlog fun n hn => ?_⟩
          obtain rfl := Option.some.inj hn
          rw [hids, ← hroll.held_eq, ← r.size_emptied t]
          rfl
      | false =>
          have hrecord : (db.entities.getD ∅).contains (.ofTarget t) ≠ true := by
            rw [hroll.shows.contains_entities t, hentity]
            exact Bool.false_ne_true
          rw [Operation.records, if_neg hrecord] at hlog
          -- an entity that is not there has no sessions that could go
          obtain ⟨hself, -⟩ := Census.without_eq_self howned hentity
          have hrest : db.withoutEntities (· == .ofTarget t) = db :=
            withoutEntities_eq_self fun row hrow => beq_eq_false_iff_ne.mpr fun heq =>
              hrecord (contains_entities.mpr (heq ▸ hrow))
          rw [hrest]
          exact ⟨c, r, hroll, .of_records_nil hlog r⟩
  | registered op t asked table free backed =>
      have hlog : records log = [.registered t] := by
        rcases asked with rfl | rfl
        · exact hlog
        · rwa [Operation.records, if_pos (decide_eq_true (withEntity_ne table free))] at hlog
      exact ⟨_, _, hroll.withEntity table t, .of_record hlog nofun⟩
  | ensured t =>
      rw [Operation.records, if_neg (by simp)] at hlog
      exact ⟨c, r, hroll, .of_records_nil hlog r⟩
  | sessionMade new table free owned =>
      exact ⟨_, _, hroll.withSession table _, .of_record hlog nofun⟩
  | sessionDeleted id present => exact ⟨_, _, hroll.withoutSession id, .of_record hlog nofun⟩
  | sessionsDeleted t =>
      refine ⟨_, _, hroll.emptied t, .of_record hlog fun n hn => ?_⟩
      have hcount : db.sessionRows.countP (·.owner == .ofTarget t) = r.held t := by
        have hemptied : Effect now db (.deleteAllSessions t) _ _ := .sessionsDeleted t
        rw [count_of_effect hemptied hroll.shows, hroll.held_eq]
      obtain rfl := Option.some.inj hn
      rw [hcount, ← r.size_emptied t]
      rfl
  | looked op x looks =>
      have hlog : records log = [] := by
        cases op <;> first | exact hlog | cases looks
      exact ⟨c, r, hroll, .of_records_nil hlog r⟩

/-- Where the chain holds, the log of every operation leads from the roll of the
file before it to that of the file after it. -/
theorem run_leads (hwhole : db.Whole) (hroll : db.Enrolls c r) (a : Access) (now : Instant)
    (op : Operation) :
    ∃ c' r', (run a now db op).store.Enrolls c' r' ∧ Leads (run a now db op).events r r' := by
  cases hanswer : (run a now db op).answer with
  | error e =>
      rw [run_store_of_error hanswer]
      exact ⟨c, r, hroll, .of_records_nil (run_records_of_error hanswer) r⟩
  | ok x => exact (run_effect hanswer).leads hwhole hroll (run_records hanswer)

end FileStore

end OwnershipRegistry
