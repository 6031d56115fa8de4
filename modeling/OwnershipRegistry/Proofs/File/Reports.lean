import OwnershipRegistry.Proofs.File.Removal

/-!
What reports say of the file. A removal reads the sessions of its target before
it deletes, and the sessions then go with the entity. So a report is true of every
file in which the target is registered or has no session. Sessions that another
program has left behind without their entity are named all the same, and stay
where they are.
-/

namespace OwnershipRegistry

namespace Database

variable {db db' : Database} {t : Target} {m : Removal} {s : SessionRow}

/-- The identifiers of the sessions that have gone, in ascending order. -/
def lostSessions (db db' : Database) : List Cell :=
  (db.sessionRows.filter fun s => s ∉ db'.sessionRows).map SessionRow.id

/-- A removal has a backing record or an entity to look for, and the target has
sessions that hang on nothing. -/
def Misleads (db : Database) (t : Target) (m : Removal) : Prop :=
  (m = .deletion → .ofString t.id ∈ db.backingIds t.kind) ∧
    ∃ s, db.Unowned s ∧ s.owner = .ofTarget t

/-! ### What a removal takes -/

theorem mem_entityRows_left {r : EntityRow} :
    r ∈ (db.left t m).entityRows ↔ r ∈ db.entityRows ∧ r ≠ .ofTarget t := by
  cases m with
  | deletion =>
      rw [left, entityRows_withoutBacking, List.mem_filter, ← reference_eq_some_ofTarget.ne]
      simp
  | notice => simp [left]

/-- The sessions of the target go with its entity, if it has one. -/
theorem mem_sessionRows_left :
    s ∈ (db.left t m).sessionRows ↔
      s ∈ db.sessionRows ∧ (s.owner = .ofTarget t → .ofTarget t ∉ db.entityRows) := by
  have howner : (s.owner = .ofTarget t → s.owner ∉ db.entityRows) ↔
      (s.owner = .ofTarget t → .ofTarget t ∉ db.entityRows) :=
    ⟨fun h he => he ▸ h he, fun h he => he ▸ h he⟩
  cases m with
  | deletion => rw [left, mem_sessionRows_withoutBacking, reference_eq_some_ofTarget, howner]
  | notice => rw [left, mem_sessionRows_withoutEntities, beq_iff_eq, howner]

theorem lostSessions_self (db : Database) : db.lostSessions db = [] := by
  simp [lostSessions]

theorem lostSessions_left_of_registered (h : .ofTarget t ∈ db.entityRows) :
    db.lostSessions (db.left t m) =
      (db.sessionRows.filter fun s => s.owner == .ofTarget t).map SessionRow.id := by
  have hlost : ∀ s ∈ db.sessionRows,
      decide (s ∉ (db.left t m).sessionRows) = (s.owner == .ofTarget t) := by
    intro s hs
    rw [Bool.eq_iff_iff, decide_eq_true_iff, mem_sessionRows_left, beq_iff_eq]
    simp [hs, h]
  rw [lostSessions, List.filter_congr hlost]

theorem lostSessions_left_of_absent (h : .ofTarget t ∉ db.entityRows) :
    db.lostSessions (db.left t m) = [] := by
  rw [lostSessions, List.map_eq_nil_iff, List.filter_eq_nil_iff]
  intro s hs
  simp [mem_sessionRows_left, hs, h]

theorem left_eq_self_iff (hm : m = .deletion → .ofString t.id ∈ db.backingIds t.kind) :
    db.left t m = db ↔ m = .notice ∧ .ofTarget t ∉ db.entityRows := by
  constructor
  · intro h
    constructor
    · cases m with
      | notice => rfl
      | deletion =>
          have hid := hm rfl
          rw [← h] at hid
          exact absurd rfl ((mem_backingIds_withoutBacking.mp hid).2 rfl)
    · intro ht
      rw [← h] at ht
      exact (mem_entityRows_left.mp ht).2 rfl
  · rintro ⟨rfl, ht⟩
    refine withoutEntities_eq_self fun r hr => beq_eq_false_iff_ne.mpr ?_
    rintro rfl
    exact ht hr

/-- What is read of the sessions of a target is in ascending order. -/
theorem sessionIdsOf_ascending {ids : List SessionId} (h : db.sessionIdsOf t = .ok ids) :
    ids.Pairwise fun a b => compare a.key b.key = .lt := by
  have hrows : (db.sessionRows.filter fun s => s.owner == .ofTarget t).Pairwise
      fun a b => compare a.id b.id = .lt := ((db.sessions.getD ∅).ascending).filter _
  have hcells : ((db.sessionRows.filter fun s => s.owner == .ofTarget t).map SessionRow.id).Pairwise
      fun a b => compare a b = .lt := List.pairwise_map.mpr hrows
  rw [← sessionIdsOf_eq_ok h] at hcells
  exact List.pairwise_map.mp hcells

end Database

open Database

/-- What a removal of a target reports, between the file before it and the file
that it leaves. -/
structure CascadeReport.Tells (db : Database) (t : Target) (m : Removal) (db' : Database)
    (r : CascadeReport) : Prop where
  target : r.target = t
  record : r.backingRemoved = true ↔
    .ofString t.id ∈ db.backingIds t.kind ∧ .ofString t.id ∉ db'.backingIds t.kind
  entity : r.entityRemoved = true ↔ .ofTarget t ∈ db.entityRows ∧ .ofTarget t ∉ db'.entityRows
  ascending : r.sessionsRemoved.Pairwise fun a b => compare a.key b.key = .lt
  sessions : ¬db.Misleads t m →
    r.sessionsRemoved.map (fun id => Cell.ofString id.text) = db.lostSessions db'
  noop : ¬db.Misleads t m → (r.isNoop = true ↔ db' = db)
  /-- Sessions that hang on nothing are named, and no session has gone; a notice
  has then changed nothing at all. -/
  misled : db.Misleads t m →
    (r.sessionsRemoved ≠ [] ∧ r.sessionsRemoved.map (fun id => Cell.ofString id.text) =
      (db.sessionRows.filter fun s => s.owner == .ofTarget t).map SessionRow.id) ∧
    db.lostSessions db' = [] ∧ r.isNoop = false ∧ (db' = db ↔ m = .notice)

namespace FileStore

variable {now : Instant} {db db' : Database} {t : Target} {m : Removal} {x : Answer}

/-- A deletion that finds no backing record looks no further. -/
theorem tells_empty (absent : .ofString t.id ∉ db.backingIds t.kind) :
    CascadeReport.Tells db t .deletion db (.empty t) where
  target := rfl
  record := by simp [CascadeReport.empty, absent]
  entity := by simp [CascadeReport.empty]
  ascending := .nil
  sessions _ := (lostSessions_self db).symm
  noop _ := by simp [CascadeReport.empty, CascadeReport.isNoop]
  misled h := absurd (h.1 rfl) absent

theorem tells_left {ids : List SessionId} (listed : db.sessionIdsOf t = .ok ids)
    (hm : m = .deletion → .ofString t.id ∈ db.backingIds t.kind) :
    CascadeReport.Tells db t m (db.left t m)
      ⟨t, m == .deletion, (db.entities.getD ∅).contains (.ofTarget t), ids⟩ := by
  have hlisted := sessionIdsOf_eq_ok listed
  have hnone : ids = [] ↔ ∀ s ∈ db.sessionRows, s.owner ≠ .ofTarget t := by
    rw [← List.map_eq_nil_iff (f := fun id : SessionId => Cell.ofString id.text), hlisted,
      List.map_eq_nil_iff, List.filter_eq_nil_iff]
    simp
  -- unless the removal misleads, a target with sessions is registered
  have hregistered (h : ¬db.Misleads t m) (ht : .ofTarget t ∉ db.entityRows) : ids = [] :=
    hnone.mpr fun s hs howner => h ⟨hm, s, ⟨hs, howner ▸ ht⟩, howner⟩
  refine ⟨rfl, ?_, ?_, sessionIdsOf_ascending listed, fun h => ?_, fun h => ?_, ?_⟩
  · cases m with
    | deletion => simp [left, hm rfl]
    | notice => simp [left]
  · rw [contains_entities, mem_entityRows_left]
    simp
  · by_cases ht : .ofTarget t ∈ db.entityRows
    · rw [lostSessions_left_of_registered ht, hlisted]
    · rw [lostSessions_left_of_absent ht, hregistered h ht, List.map_nil]
  · rw [left_eq_self_iff hm, ← contains_entities]
    have hids := hregistered h
    rw [← contains_entities] at hids
    cases m <;> simp +contextual [CascadeReport.isNoop, hids]
  · rintro ⟨-, s, ⟨hs, hunowned⟩, howner⟩
    have ht : .ofTarget t ∉ db.entityRows := howner ▸ hunowned
    have hids : ids ≠ [] := fun h => hnone.mp h s hs howner
    refine ⟨⟨hids, hlisted⟩, lostSessions_left_of_absent ht, ?_, ?_⟩
    · simp [CascadeReport.isNoop, hids]
    · rw [left_eq_self_iff hm]
      exact and_iff_left ht

theorem Effect.tells (h : Effect now db (m.operation t) x db') :
    ∃ r, x = .report r ∧ r.Tells db t m db' := by
  cases m with
  | deletion =>
      cases h with
      | backingMissed _ ids listed absent => exact ⟨_, rfl, tells_empty absent⟩
      | backingDeleted _ ids listed present =>
          exact ⟨_, rfl, tells_left (m := .deletion) listed fun _ => present⟩
      | registered _ _ asked => rcases asked with asked | asked <;> cases asked
      | looked _ _ looks => cases looks
  | notice =>
      cases h with
      | entityDeleted _ ids listed =>
          exact ⟨_, rfl, tells_left (m := .notice) listed nofun⟩
      | registered _ _ asked => rcases asked with asked | asked <;> cases asked
      | looked _ _ looks => cases looks

theorem Caller.run_effect {c : Caller} {op : Operation} (h : (c.run db op).answer = .ok x) :
    Effect c.now db op x (c.run db op).store := by
  have hrun := Caller.run_eq_of_ok h
  rw [hrun] at h ⊢
  exact FileStore.run_effect h

end FileStore

/-- On every content of the file the report of a removal that succeeds is true of
the backing record and of the entity; it is true of the sessions, and a no-op just
if nothing has changed, unless it names sessions that hang on nothing. -/
theorem removal_reported (c : FileStore.Caller) (db : Database) (t : Target) (m : Removal)
    (x : Answer) (h : (c.run db (m.operation t)).answer = .ok x) :
    ∃ r, x = .report r ∧ r.Tells db t m (c.run db (m.operation t)).store :=
  (FileStore.Caller.run_effect h).tells

/-- A file with a session that hangs on nothing; its owner may have a backing
record. -/
def Database.straySession (ids : List Cell) : Database where
  bots := some (.holding (.ofList ids))
  users := some {}
  entities := some ∅
  sessions := some (.ofList
    [⟨.ofString "s", .ofString "a", .ofString "bot", none, .ofString "2026-01-01T00:00:00Z"⟩])

theorem Database.straySession_misleads {ids : List Cell} {m : Removal}
    (h : m = .deletion → .ofString "a" ∈ (straySession ids).backingIds .bot) :
    (straySession ids).Misleads ⟨.bot, "a"⟩ m := by
  refine ⟨h, _, ⟨List.mem_singleton.mpr rfl, ?_⟩, rfl⟩
  exact List.not_mem_nil

/-- Both removals name the stray session and leave it; the notice changes nothing
and is not told as a no-op. A stray session of a target without a backing record
does not mislead a deletion. -/
theorem removal_reported_straySession :
    (∃ r : CascadeReport,
      (FileStore.Caller.run (.straySession []) ⟨Database.empty.outline, .free, .epoch⟩
        (.backingDeleted ⟨.bot, "a"⟩)).answer = .ok (.report r) ∧
      (FileStore.Caller.run (.straySession []) ⟨Database.empty.outline, .free, .epoch⟩
        (.backingDeleted ⟨.bot, "a"⟩)).store = .straySession [] ∧
      r.sessionsRemoved ≠ [] ∧ r.isNoop = false) ∧
    (∃ r : CascadeReport,
      (FileStore.Caller.run (.straySession [.ofString "a"])
        ⟨Database.empty.outline, .free, .epoch⟩
        (.deleteBacking ⟨.bot, "a"⟩)).answer = .ok (.report r) ∧
      r.backingRemoved = true ∧ r.sessionsRemoved ≠ [] ∧
      (Database.straySession [.ofString "a"]).lostSessions
        (FileStore.Caller.run (.straySession [.ofString "a"])
          ⟨Database.empty.outline, .free, .epoch⟩ (.deleteBacking ⟨.bot, "a"⟩)).store = []) ∧
    ∃ r : CascadeReport,
      (FileStore.Caller.run (.straySession []) ⟨Database.empty.outline, .free, .epoch⟩
        (.deleteBacking ⟨.bot, "a"⟩)).answer = .ok (.report r) ∧ r.isNoop = true := by
  refine ⟨?_, ?_, ?_⟩
  · obtain ⟨r, hr, htells⟩ := removal_reported ⟨Database.empty.outline, .free, .epoch⟩
      (.straySession []) ⟨.bot, "a"⟩ .notice (.report ⟨⟨.bot, "a"⟩, false, false, [⟨"s"⟩]⟩) rfl
    obtain ⟨⟨hids, -⟩, -, hnoop, hsame⟩ := htells.misled (Database.straySession_misleads nofun)
    exact ⟨r, hr ▸ rfl, hsame.mpr rfl, hids, hnoop⟩
  · have hpresent : Cell.ofString "a" ∈
        (Database.straySession [.ofString "a"]).backingIds .bot := List.mem_singleton.mpr rfl
    obtain ⟨r, hr, htells⟩ := removal_reported ⟨Database.empty.outline, .free, .epoch⟩
      (.straySession [.ofString "a"]) ⟨.bot, "a"⟩ .deletion
      (.report ⟨⟨.bot, "a"⟩, true, false, [⟨"s"⟩]⟩) rfl
    obtain ⟨⟨hids, -⟩, hlost, -⟩ :=
      htells.misled (Database.straySession_misleads fun _ => hpresent)
    refine ⟨r, hr ▸ rfl, htells.record.mpr ⟨hpresent, ?_⟩, hids, hlost⟩
    exact List.not_mem_nil
  · have habsent : ¬(Database.straySession []).Misleads ⟨.bot, "a"⟩ .deletion :=
      fun h => List.not_mem_nil (h.1 rfl)
    obtain ⟨r, hr, htells⟩ := removal_reported ⟨Database.empty.outline, .free, .epoch⟩
      (.straySession []) ⟨.bot, "a"⟩ .deletion (.report (.empty ⟨.bot, "a"⟩)) rfl
    exact ⟨r, hr ▸ rfl, (htells.noop habsent).mpr rfl⟩

end OwnershipRegistry
