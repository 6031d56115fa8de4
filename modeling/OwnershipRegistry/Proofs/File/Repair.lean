import Mathlib.Data.List.Nodup
import OwnershipRegistry.Proofs.File.Findings
import OwnershipRegistry.Proofs.File.Insertion
import OwnershipRegistry.Proofs.Frame

/-!
Repairs. What the audit finds is repaired by calls of the store: an entity without its
backing record goes by a notice that its record has gone away, and a session without
its entity by its deletion. A repair takes one finding away and adds none, and it
leaves the rows in which the chain holds; so the findings may be repaired in any
order, and in the end those rows are left and no others. A finding about an entity
also goes when its backing record comes back.
-/

namespace OwnershipRegistry

/-- The call that repairs a violation. -/
def Violation.repair : Violation → Operation
  | orphanEntity t => .backingDeleted t
  | orphanSession id _ => .deleteSession id

/-! ### Findings without one of them -/

namespace Findings

variable {f : Findings} {db db' : Database} {v : Violation} {t : Target}

def without (f : Findings) (v : Violation) : Findings where
  entities := f.entities.filter fun t => .orphanEntity t != v
  sessions := f.sessions.filter fun x => .orphanSession x.1 x.2 != v

theorem violations_without (f : Findings) (v : Violation) :
    (f.without v).violations = f.violations.filter (· != v) := by
  rw [violations, violations, List.filter_append, List.filter_map, List.filter_map]
  rfl

theorem mem_violations_entity : .orphanEntity t ∈ f.violations ↔ t ∈ f.entities := by
  simp [violations]

theorem mem_violations_session {id : SessionId} :
    .orphanSession id t ∈ f.violations ↔ (id, t) ∈ f.sessions := by
  simp [violations]

/-- No two findings are about sessions under one identifier. -/
theorem Exact.session_unique (h : f.Exact db) {x y : SessionId × Target} (hx : x ∈ f.sessions)
    (hy : y ∈ f.sessions) (hid : x.1 = y.1) : x = y := by
  have hnodup : (f.sessions.map fun x => x.1.key).Nodup := by
    refine List.pairwise_map.mpr (h.sessionsAscend.imp fun {a b} hab heq => ?_)
    rw [heq, Std.compare_self] at hab
    cases hab
  exact List.inj_on_of_nodup_map hnodup hx hy (congrArg SessionId.key hid)

theorem Exact.nodup (h : f.Exact db) : f.violations.Nodup := by
  have hentities : f.entities.Nodup := by
    refine h.entitiesAscend.imp fun {a b} hab heq => ?_
    rw [heq, Std.compare_self] at hab
    cases hab
  have hsessions : f.sessions.Nodup := by
    refine h.sessionsAscend.imp fun {a b} hab heq => ?_
    rw [heq, Std.compare_self] at hab
    cases hab
  refine List.Nodup.append (hentities.map fun t t' => Violation.orphanEntity.inj)
    (hsessions.map fun x y heq => ?_) fun v hv hv' => ?_
  · obtain ⟨hid, htarget⟩ := Violation.orphanSession.inj heq
    exact Prod.ext hid htarget
  · obtain ⟨t, -, rfl⟩ := List.mem_map.mp hv
    obtain ⟨x, -, hx⟩ := List.mem_map.mp hv'
    cases hx

/-- Findings follow the rows if an entity ceases to be an orphan. -/
theorem Of.without_entity (h : f.Of db)
    (hentities : db'.orphanRows = db.orphanRows.filter fun r => !(r == .ofTarget t))
    (hsessions : db'.unownedRows = db.unownedRows) : (f.without (.orphanEntity t)).Of db' where
  entities := by
    rw [hentities, h.entities, List.filter_map, without]
    refine congrArg _ (List.filter_congr fun t' _ => ?_)
    rw [Function.comp_apply, ofTarget_beq, Bool.eq_iff_iff]
    simp
  sessions := by
    have hkept : (f.without (.orphanEntity t)).sessions = f.sessions :=
      List.filter_eq_self.mpr fun x _ => bne_iff_ne.mpr nofun
    rw [hsessions, h.sessions, hkept]

/-- Findings follow the rows if a session without its entity goes. -/
theorem Of.without_session (h : f.Of db) {id : SessionId} (hid : (id, t) ∈ f.sessions)
    (hentities : db'.orphanRows = db.orphanRows)
    (hsessions : db'.unownedRows =
      db.unownedRows.filter fun s => !(s.id == .ofString id.text)) :
    (f.without (.orphanSession id t)).Of db' where
  entities := by
    have hkept : (f.without (.orphanSession id t)).entities = f.entities :=
      List.filter_eq_self.mpr fun t _ => bne_iff_ne.mpr nofun
    rw [hentities, h.entities, hkept]
  sessions := by
    have hlabels : (db.unownedRows.filter fun s => !(s.id == .ofString id.text)).map
        SessionRow.label = (db.unownedRows.map SessionRow.label).filter
          fun l => !(l.1 == .ofString id.text) := by
      rw [List.filter_map]
      rfl
    rw [hsessions, hlabels, h.sessions, List.filter_map, without]
    refine congrArg _ (List.filter_congr fun x hx => ?_)
    -- the identifier alone tells the finding
    have hsame : x.1 = id ↔ x = (id, t) := ⟨h.exact.session_unique hx hid, congrArg Prod.fst⟩
    have hcell : Cell.ofString x.1.text = .ofString id.text ↔ x.1 = id :=
      ⟨fun h => congrArg SessionId.mk (Cell.ofString_injective h), fun h => h ▸ rfl⟩
    have htold : Violation.orphanSession x.1 x.2 = .orphanSession id t ↔ x = (id, t) := by
      rw [Violation.orphanSession.injEq, Prod.ext_iff]
    rw [Function.comp_apply, labelOf, Bool.eq_iff_iff, Bool.not_eq_true', beq_eq_false_iff_ne,
      bne_iff_ne, Ne, Ne, hcell, hsame, htold]

end Findings

/-! ### Rows in which the chain holds -/

namespace Database

variable {db db' db'' : Database} {r : EntityRow} {s : SessionRow} {t : Target} {v : Violation}
  {f : Findings}

/-- A session that has no entity or hangs on one without its backing record. -/
def Adrift (db : Database) (s : SessionRow) : Prop :=
  db.Unowned s ∨ s ∈ db.sessionRows ∧ db.Orphaned s.owner

/-- Two files with the same tables and the same backing records, whose other rows are
the same as far as the chain holds. -/
structure SameChain (db db' : Database) : Prop where
  tables : db.SameTables db'
  records : ∀ k, db'.backing k = db.backing k
  entities : ∀ r, r ∈ db'.entityRows ∧ ¬db'.Orphaned r ↔ r ∈ db.entityRows ∧ ¬db.Orphaned r
  sessions : ∀ s, s ∈ db'.sessionRows ∧ ¬db'.Adrift s ↔ s ∈ db.sessionRows ∧ ¬db.Adrift s

theorem SameChain.refl (db : Database) : db.SameChain db :=
  ⟨.refl db, fun _ => rfl, fun _ => Iff.rfl, fun _ => Iff.rfl⟩

theorem SameChain.trans (h : db.SameChain db') (h' : db'.SameChain db'') : db.SameChain db'' where
  tables := h.tables.trans h'.tables
  records k := (h'.records k).trans (h.records k)
  entities r := (h'.entities r).trans (h.entities r)
  sessions s := (h'.sessions s).trans (h.sessions s)

/-- The same file without the rows that break the chain and without those that hang on
them. -/
structure Repaired (db db' : Database) : Prop where
  tables : db.SameTables db'
  records : ∀ k, db'.backing k = db.backing k
  entities : ∀ r, r ∈ db'.entityRows ↔ r ∈ db.entityRows ∧ ¬db.Orphaned r
  sessions : ∀ s, s ∈ db'.sessionRows ↔ s ∈ db.sessionRows ∧ ¬db.Adrift s

theorem Whole.not_orphaned (h : db.Whole) (r : EntityRow) : ¬db.Orphaned r := by
  rintro ⟨hr, k, hk, hid⟩
  exact hid (isBacked_iff.mp (h.backed r hr) k hk)

/-- Where the chain holds in the end, the rows in which it held are all that is
left. -/
theorem SameChain.repaired (h : db.SameChain db') (hwhole : db'.Whole) : db.Repaired db' where
  tables := h.tables
  records := h.records
  entities r := by
    rw [← h.entities]
    exact (and_iff_left (hwhole.not_orphaned r)).symm
  sessions s := by
    rw [← h.sessions]
    refine ⟨fun hs => ⟨hs, ?_⟩, And.left⟩
    rintro (⟨-, howner⟩ | ⟨-, horphaned⟩)
    · exact howner (hwhole.owned s hs)
    · exact hwhole.not_orphaned _ horphaned

/-! ### What a repair leaves -/

theorem isOrphan_iff :
    db.isOrphan r = true ↔ ∃ k : Kind, r.kind = .ofString k.tag ∧ r.id ∉ db.backingIds k := by
  rw [isOrphan_eq_not_isBacked, Bool.not_eq_true', ← Bool.not_eq_true, isBacked_iff]
  simp only [Classical.not_forall, exists_prop]

theorem isOrphan_withoutEntities {p : EntityRow → Bool} :
    (db.withoutEntities p).isOrphan = db.isOrphan := by
  funext r
  simp only [isOrphan, backing_withoutEntities]

theorem contains_withoutEntities {p : EntityRow → Bool} :
    ((db.withoutEntities p).entities.getD ∅).contains r =
      ((db.entities.getD ∅).contains r && !p r) := by
  rw [Bool.eq_iff_iff, contains_entities, entityRows_withoutEntities, List.mem_filter,
    Bool.and_eq_true, contains_entities]

theorem orphanRows_withoutEntities {p : EntityRow → Bool} :
    (db.withoutEntities p).orphanRows = db.orphanRows.filter fun r => !p r := by
  rw [orphanRows, isOrphan_withoutEntities, entityRows_withoutEntities, orphanRows,
    List.filter_filter, List.filter_filter]
  exact List.filter_congr fun r _ => Bool.and_comm _ _

/-- Sessions that go with their entity are not those that have none. -/
theorem unownedRows_withoutEntities {p : EntityRow → Bool}
    (hp : ∀ r, p r = true → r ∈ db.entityRows) :
    (db.withoutEntities p).unownedRows = db.unownedRows := by
  have hrows : (db.withoutEntities p).sessionRows =
      db.sessionRows.filter fun s => !(p s.owner && (db.entities.getD ∅).contains s.owner) :=
    sessionRows_withoutSessions
  rw [unownedRows, hrows, unownedRows, List.filter_filter]
  refine List.filter_congr fun s _ => ?_
  rw [contains_withoutEntities]
  cases hs : p s.owner with
  | false => simp
  | true => rw [contains_entities.mpr (hp _ hs)]; rfl

theorem unownedRows_withoutSessions {p : SessionRow → Bool} :
    (db.withoutSessions p).unownedRows = db.unownedRows.filter fun s => !p s := by
  rw [unownedRows, sessionRows_withoutSessions, unownedRows, List.filter_filter,
    List.filter_filter]
  exact List.filter_congr fun s _ => Bool.and_comm _ _

/-- The file after the repair of a violation. -/
def mended (db : Database) : Violation → Database
  | .orphanEntity t => db.withoutEntities (· == .ofTarget t)
  | .orphanSession id _ => db.withoutSessions (·.id == .ofString id.text)

theorem sameTables_mended (db : Database) (v : Violation) : db.SameTables (db.mended v) := by
  cases v with
  | orphanEntity t => exact sameTables_withoutEntities _ _
  | orphanSession id t => exact sameTables_withoutSessions _ _

theorem backing_mended (db : Database) (v : Violation) (k : Kind) :
    (db.mended v).backing k = db.backing k := by
  cases v <;> cases k <;> rfl

/-- A violation that is found is one of the rows. -/
theorem orphaned_of_mem (h : f.Of db) (ht : .orphanEntity t ∈ f.violations) :
    db.Orphaned (.ofTarget t) :=
  (h.exact.entities _).mp (List.mem_map_of_mem (Findings.mem_violations_entity.mp ht))

theorem unowned_of_mem (h : f.Of db) {id : SessionId} (hv : .orphanSession id t ∈ f.violations) :
    ∃ s, db.Unowned s ∧ s.id = .ofString id.text := by
  have hmem : (id, t) ∈ f.sessions := Findings.mem_violations_session.mp hv
  obtain ⟨s, hs, hlabel⟩ := (h.exact.sessions _).mp (List.mem_map_of_mem hmem)
  exact ⟨s, hs, congrArg Prod.fst hlabel⟩

theorem mem_entityRows_mended_orphanEntity :
    r ∈ (db.mended (.orphanEntity t)).entityRows ↔ r ∈ db.entityRows ∧ r ≠ .ofTarget t := by
  rw [mended, entityRows_withoutEntities, List.mem_filter]
  simp

theorem mem_sessionRows_mended_orphanEntity (ht : .ofTarget t ∈ db.entityRows) :
    s ∈ (db.mended (.orphanEntity t)).sessionRows ↔
      s ∈ db.sessionRows ∧ s.owner ≠ .ofTarget t := by
  rw [mended, mem_sessionRows_withoutEntities]
  refine and_congr_right fun _ => ?_
  rw [beq_iff_eq]
  exact ⟨fun h heq => h heq (heq ▸ ht), fun h heq => absurd heq h⟩

theorem mem_sessionRows_mended_orphanSession {id : SessionId} :
    s ∈ (db.mended (.orphanSession id t)).sessionRows ↔
      s ∈ db.sessionRows ∧ s.id ≠ .ofString id.text := by
  rw [mended, sessionRows_withoutSessions, List.mem_filter]
  simp

theorem not_orphaned_iff :
    r ∈ db.entityRows ∧ ¬db.Orphaned r ↔ r ∈ db.entityRows ∧ db.isOrphan r = false := by
  rw [← Bool.not_eq_true, isOrphan_iff, Orphaned]
  refine and_congr_right fun hr => not_congr (and_iff_right hr)

theorem not_adrift_iff :
    s ∈ db.sessionRows ∧ ¬db.Adrift s ↔
      s ∈ db.sessionRows ∧ s.owner ∈ db.entityRows ∧ db.isOrphan s.owner = false := by
  rw [← not_orphaned_iff, Adrift, Unowned]
  refine and_congr_right fun hs => ?_
  rw [and_iff_right hs, and_iff_right hs, not_or, not_not]

theorem sameChain_mended_entity (ht : db.Orphaned (.ofTarget t)) :
    db.SameChain (db.mended (.orphanEntity t)) := by
  have hne {r : EntityRow} (hr : db.isOrphan r = false) : r ≠ .ofTarget t := by
    rintro rfl
    exact Bool.false_ne_true (hr.symm.trans (isOrphan_iff.mpr ht.2))
  have hsame : (db.mended (.orphanEntity t)).isOrphan = db.isOrphan := isOrphan_withoutEntities
  refine ⟨sameTables_mended db _, backing_mended db _, fun r => ?_, fun s => ?_⟩
  · rw [not_orphaned_iff, not_orphaned_iff, hsame, mem_entityRows_mended_orphanEntity]
    exact and_congr_left fun hr => and_iff_left (hne hr)
  · rw [not_adrift_iff, not_adrift_iff, hsame, mem_entityRows_mended_orphanEntity,
      mem_sessionRows_mended_orphanEntity ht.1]
    constructor
    · rintro ⟨⟨hs, -⟩, ⟨howner, -⟩, hbacked⟩
      exact ⟨hs, howner, hbacked⟩
    · rintro ⟨hs, howner, hbacked⟩
      exact ⟨⟨hs, hne hbacked⟩, ⟨howner, hne hbacked⟩, hbacked⟩

theorem sameChain_mended_session {id : SessionId} (hs : db.Unowned s)
    (hid : s.id = .ofString id.text) : db.SameChain (db.mended (.orphanSession id t)) := by
  refine ⟨sameTables_mended db _, backing_mended db _, fun r => Iff.rfl, fun s' => ?_⟩
  have hne (hs' : s' ∈ db.sessionRows) (howner : s'.owner ∈ db.entityRows) :
      s'.id ≠ .ofString id.text := by
    intro heq
    obtain rfl : s' = s := Table.eq_of_key_eq hs' hs.1 (heq.trans hid.symm)
    exact hs.2 howner
  rw [not_adrift_iff, not_adrift_iff, mem_sessionRows_mended_orphanSession]
  constructor
  · rintro ⟨⟨hs', -⟩, hchain⟩
    exact ⟨hs', hchain⟩
  · rintro ⟨hs', hchain⟩
    exact ⟨⟨hs', hne hs' hchain.1⟩, hchain⟩

/-- A repair leaves the rows in which the chain holds. -/
theorem sameChain_mended (h : f.Of db) (hv : v ∈ f.violations) : db.SameChain (db.mended v) := by
  cases v with
  | orphanEntity t => exact sameChain_mended_entity (orphaned_of_mem h hv)
  | orphanSession id t =>
      obtain ⟨s, hs, hid⟩ := unowned_of_mem h hv
      exact sameChain_mended_session hs hid

/-- What a repair leaves was there before. -/
theorem mem_of_mem_mended (h : f.Of db) (hv : v ∈ f.violations) :
    (∀ r ∈ (db.mended v).entityRows, r ∈ db.entityRows) ∧
      ∀ s ∈ (db.mended v).sessionRows, s ∈ db.sessionRows := by
  cases v with
  | orphanEntity t =>
      have ht := (orphaned_of_mem h hv).1
      exact ⟨fun r hr => (mem_entityRows_mended_orphanEntity.mp hr).1,
        fun s hs => ((mem_sessionRows_mended_orphanEntity ht).mp hs).1⟩
  | orphanSession id t =>
      exact ⟨fun r hr => hr, fun s hs => (mem_sessionRows_mended_orphanSession.mp hs).1⟩

/-! ### Files that can be repaired -/

/-- Nothing is in the way of the repairs: no other program has blocked the deletion of
a row that has to go, and the identifiers of the sessions that go with an entity are
texts. -/
structure Repairable (db : Database) : Prop where
  entities : ∀ r, db.Orphaned r → db.isBlocked .entities .deletion = false
  sessions : ∀ s, db.Adrift s → db.isBlocked .sessions .deletion = false
  legible : ∀ s ∈ db.sessionRows, db.Orphaned s.owner → ∃ text, s.id = .ofString text

/-- A file that can be repaired can be so after any of the repairs. -/
theorem Repairable.mono (h : db.Repairable) (hsame : db.SameChain db')
    (hentities : ∀ r ∈ db'.entityRows, r ∈ db.entityRows)
    (hsessions : ∀ s ∈ db'.sessionRows, s ∈ db.sessionRows) : db'.Repairable := by
  have hblocked (n : TableName) : db'.isBlocked n .deletion = db.isBlocked n .deletion := by
    rw [isBlocked, hsame.tables.blocks, isBlocked]
  have horphaned {r : EntityRow} (hr : db'.Orphaned r) : db.Orphaned r := by
    refine by_contra fun hno => ?_
    exact ((hsame.entities r).mpr ⟨hentities r hr.1, hno⟩).2 hr
  have hadrift {s : SessionRow} (hmem : s ∈ db'.sessionRows) (hs : db'.Adrift s) :
      db.Adrift s := by
    refine by_contra fun hno => ?_
    exact ((hsame.sessions s).mpr ⟨hsessions s hmem, hno⟩).2 hs
  refine ⟨fun r hr => ?_, fun s hs => ?_, fun s hs howner => ?_⟩
  · rw [hblocked, h.entities r (horphaned hr)]
  · have hmem : s ∈ db'.sessionRows := hs.elim And.left And.left
    rw [hblocked, h.sessions s (hadrift hmem hs)]
  · exact h.legible s (hsessions s hs) (horphaned howner)

theorem Audited.mono (h : db.Audited) (htables : db.SameTables db') : db'.Audited where
  backing k := by rw [htables.has, h.backing]
  entities := by rw [htables.has, h.entities]
  sessions := by rw [htables.has, h.sessions]

/-- What hangs on an entity without its backing record can be deleted. -/
theorem Repairable.deletable (h : db.Repairable) (ha : db.Audited)
    (ht : db.Orphaned (.ofTarget t)) : db.Deletable t where
  record hid := by
    obtain ⟨-, k, hk, habsent⟩ := ht
    obtain rfl : t.kind = k := ofString_tag_injective hk
    exact absurd hid habsent
  entity _ := h.entities _ ht
  held s hs howner := h.sessions s (.inr ⟨hs, howner ▸ ht⟩)
  backing := ha.backing
  entities := ha.entities
  sessions := ha.sessions
  legible s hs howner := h.legible s hs (howner ▸ ht)

theorem refusal_deleteSession {rules : Rules} (hs : db.has .sessions = true)
    (he : db.has .entities = true) : db.refusal rules .deleteSession = none := by
  rw [refusal, Outline.obstacle, lacking_eq_none.mpr hs, brokenReference_eq_none.mpr he, ite_self]
  rfl

end Database

/-- A repair takes its finding away and adds none. -/
theorem Findings.Of.mended {f : Findings} {db : Database} {v : Violation} (h : f.Of db)
    (hv : v ∈ f.violations) : (f.without v).Of (db.mended v) := by
  cases v with
  | orphanEntity t =>
      obtain ⟨ht, -⟩ := Database.orphaned_of_mem h hv
      refine h.without_entity Database.orphanRows_withoutEntities
        (Database.unownedRows_withoutEntities fun r hr => ?_)
      rwa [beq_iff_eq.mp hr]
  | orphanSession id t =>
      exact h.without_session (Findings.mem_violations_session.mp hv) rfl
        Database.unownedRows_withoutSessions

/-! ### Calls -/

namespace FileStore

open Database

variable {a : Access} {now : Instant} {db : Database} {c : Caller} {f : Findings} {v : Violation}
  {t : Target}

/-- A caller whom no lock is in the way of, and who remembers no unrelated table under
one of the registry's names. -/
structure Caller.Clear (c : Caller) : Prop extends Caller.Unhindered c where
  known : c.known.Plain

theorem Caller.Clear.run_eq (hc : c.Clear) (db : Database) (op : Operation) :
    c.run db op = FileStore.run c.access c.now db op :=
  runKnowing_eq_run hc.known hc.reads c.now db op

/-- A session is deleted where it is there and the deletion of sessions is not
blocked. -/
theorem exists_deleteSession_answer (ha : a.Writes) (hs : db.has .sessions = true)
    (he : db.has .entities = true) {id : SessionId} {s : SessionRow} (hmem : s ∈ db.sessionRows)
    (hid : s.id = .ofString id.text) (hfree : db.isBlocked .sessions .deletion = false) :
    ∃ x, (deleteSession a db id).answer = .ok x := by
  obtain ⟨⟨rest, n⟩, hdelete⟩ :
      ∃ x, db.deleteSessions {} (·.id == .ofString id.text) = .ok x := by
    rw [deleteSessions, exists_understood, Except.exists_ok_map, exists_removeSessions]
    exact ⟨refusal_deleteSession hs he, fun _ _ _ => hfree⟩
  have hsome : n ≠ 0 := by
    rw [(deleteSessions_eq_ok hdelete).2]
    exact Nat.pos_iff_ne_zero.mp (List.countP_pos_iff.mpr ⟨s, hmem, beq_iff_eq.mpr hid⟩)
  have hchange : a.change db .deleteSession (db.deleteSessions {} (·.id == .ofString id.text)) =
      .ok (rest, n) := by rw [change_of_writes ha, hdelete]
  rw [deleteSession, writing_of_ok ha (congrArg (Except.mapError RegistryError.ofFault) hchange)]
  exact ⟨(), if_neg hsome⟩

/-- A repair of a finding succeeds, and does what it is for. -/
theorem Caller.Clear.repair (hc : c.Clear) (ha : db.Audited) (hdb : db.Repairable) (h : f.Of db)
    (hv : v ∈ f.violations) :
    (∃ x, (c.run db v.repair).answer = .ok x) ∧ (c.run db v.repair).store = db.mended v := by
  have hanswer : ∃ x, (c.run db v.repair).answer = .ok x := by
    rw [hc.run_eq]
    cases v with
    | orphanEntity t =>
        have hdeletable := hdb.deletable ha (orphaned_of_mem h hv)
        exact Except.exists_ok_map.mpr (exists_backingDeleted_answer hc.writes hdeletable)
    | orphanSession id t =>
        obtain ⟨s, hs, hid⟩ := unowned_of_mem h hv
        exact Except.exists_ok_map.mpr (exists_deleteSession_answer hc.writes ha.sessions
          ha.entities hs.1 hid (hdb.sessions s (.inl hs)))
  refine ⟨hanswer, ?_⟩
  obtain ⟨x, hx⟩ := hanswer
  have heffect := Caller.run_effect hx
  cases v with
  | orphanEntity t =>
      generalize (c.run db (Violation.orphanEntity t).repair).store = db' at heffect
      cases heffect with
      | entityDeleted => rfl
      | registered _ _ asked => rcases asked with asked | asked <;> cases asked
      | looked _ _ looks => cases looks
  | orphanSession id t =>
      generalize (c.run db (Violation.orphanSession id t).repair).store = db' at heffect
      cases heffect with
      | sessionDeleted => rfl
      | registered _ _ asked => rcases asked with asked | asked <;> cases asked
      | looked _ _ looks => cases looks

/-- Every call of a history succeeds. -/
def Caller.Succeed (db : Database) : List (Caller × Operation) → Prop
  | [] => True
  | call :: rest =>
    (∃ x, (call.1.run db call.2).answer = .ok x) ∧ Succeed (call.1.run db call.2).store rest

/-- What is true of a file whose findings are repaired, in whatever order. -/
theorem Caller.repairs_run {calls : List (Caller × Operation)} (ha : db.Audited)
    (hdb : db.Repairable) (h : f.Of db) (hclear : ∀ call ∈ calls, call.1.Clear)
    (hcalls : (calls.map Prod.snd).Perm (f.violations.map Violation.repair)) :
    Succeed db calls ∧ (Caller.after db calls).Audited ∧ (Caller.after db calls).Whole ∧
      db.SameChain (Caller.after db calls) := by
  induction calls generalizing db f with
  | nil =>
      have hnil : f.violations = [] := List.map_eq_nil_iff.mp (List.nil_perm.mp hcalls)
      exact ⟨trivial, ha, h.violations_eq_nil_iff.mp hnil, .refl db⟩
  | cons call calls ih =>
      obtain ⟨c, op⟩ := call
      obtain ⟨v, hv, rfl⟩ : ∃ v ∈ f.violations, v.repair = op :=
        List.mem_map.mp (hcalls.mem_iff.mp List.mem_cons_self)
      -- the remaining calls are the repairs of what is found afterwards
      have hrest : (calls.map Prod.snd).Perm ((f.without v).violations.map Violation.repair) := by
        have hone : (f.violations.map Violation.repair).Perm
            (v.repair :: (f.without v).violations.map Violation.repair) := by
          rw [Findings.violations_without, ← h.exact.nodup.erase_eq_filter]
          exact (List.perm_cons_erase hv).map Violation.repair
        exact (hcalls.trans hone).cons_inv
      obtain ⟨hanswer, hstore⟩ := (hclear _ List.mem_cons_self).repair ha hdb h hv
      have hchain := sameChain_mended h hv
      obtain ⟨hentities, hsessions⟩ := mem_of_mem_mended h hv
      obtain ⟨hsucceed, haudited, hwhole, hsame⟩ := ih (ha.mono (sameTables_mended db v))
        (hdb.mono hchain hentities hsessions) (h.mended hv)
        (fun call hcall => hclear call (List.mem_cons_of_mem _ hcall)) hrest
      refine ⟨⟨hanswer, ?_⟩, ?_⟩
      · rwa [hstore]
      · rw [Caller.after, List.foldl_cons, hstore]
        exact ⟨haudited, hwhole, hchain.trans hsame⟩

end FileStore

/-! ### Backing records that come back -/

namespace Database

variable {db : Database} {t : Target} {f : Findings}

theorem orphanRows_withBackingRow (hb : (db.backing t.kind).isSome)
    (hid : .ofString t.id ∉ db.backingIds t.kind) :
    (db.withBackingRow t.kind (.ofString t.id)).orphanRows =
      db.orphanRows.filter fun r => !(r == .ofTarget t) := by
  rw [orphanRows, entityRows_withBackingRow, orphanRows, List.filter_filter]
  refine List.filter_congr fun r _ => ?_
  rw [Bool.eq_iff_iff, Bool.and_eq_true, Bool.not_eq_true', beq_eq_false_iff_ne, isOrphan_iff,
    isOrphan_iff]
  simp only [mem_backingIds_withBackingRow hb hid, not_or, not_and]
  constructor
  · rintro ⟨k, hk, habsent, hother⟩
    refine ⟨?_, k, hk, habsent⟩
    rintro rfl
    exact hother (ofString_tag_injective hk).symm rfl
  · rintro ⟨hne, k, hk, habsent⟩
    refine ⟨k, hk, habsent, ?_⟩
    rintro rfl hid
    exact hne (reference_eq_some_ofTarget.mp (reference_eq_some.mpr ⟨hk, hid⟩))

theorem unownedRows_withBackingRow {k : Kind} {id : Cell} :
    (db.withBackingRow k id).unownedRows = db.unownedRows := by
  rw [unownedRows, sessionRows_withBackingRow, withBackingRow, entities_setBacking, unownedRows]

/-- A new backing record is added where its table asks for no more than it and is not
blocked. -/
theorem insertBacking_of_provisioned {k : Kind} {id : Cell} (hk : db.has (.ofKind k) = true)
    (hfree : db.isBlocked (.ofKind k) .insertion = false)
    (hprovisioned : ∀ b, db.backing k = some b → b.Provisioned) (hid : id ∉ db.backingIds k) :
    db.insertBacking {} k (some id) = .ok (db.withBackingRow k id) := by
  obtain ⟨b, hb⟩ := Option.isSome_iff_exists.mp (has_ofKind db k ▸ hk)
  have hnone : b.faults {} k id = [] := by
    rw [(hprovisioned b hb).faults_eq, if_neg]
    exact fun hc => hid ((mem_backingIds hb).mpr hc)
  have hrefusal : db.refusal {} (.insertBacking k) = none := by
    rw [refusal, Outline.obstacle, lackingToFill_eq_none hk]
    rfl
  rw [Database.insertBacking, understood_eq hrefusal]
  simp only [hfree, hb, Option.getD_some, hnone, Bool.false_eq_true, if_false, withBackingRow,
    Option.map_some]

end Database

namespace FileStore

open Database

variable {db : Database} {c : Caller} {f : Findings} {t : Target}

/-- The backing record of an orphan comes back. -/
theorem Caller.Clear.insertBacking (hc : c.Clear) (ha : db.Audited) (ht : db.Orphaned (.ofTarget t))
    (hprovisioned : ∀ b, db.backing t.kind = some b → b.Provisioned)
    (hfree : db.isBlocked (.ofKind t.kind) .insertion = false) :
    (c.run db (.insertBacking t)).answer = .ok .done ∧
      (c.run db (.insertBacking t)).store = db.withBackingRow t.kind (.ofString t.id) := by
  obtain ⟨-, k, hk, habsent⟩ := ht
  obtain rfl : t.kind = k := ofString_tag_injective hk
  have hinsert : db.insertBacking {} t.kind (some (.ofString t.id)) =
      .ok (db.withBackingRow t.kind (.ofString t.id)) :=
    insertBacking_of_provisioned (ha.backing t.kind) hfree hprovisioned habsent
  have hrun : FileStore.insertBacking c.access db t =
      ⟨db.withBackingRow t.kind (.ofString t.id), .ok true, [.backingInserted t]⟩ := by
    refine writing_of_ok hc.writes ?_
    rw [change_of_writes hc.writes, hinsert]
  rw [hc.run_eq, FileStore.run, hrun]
  exact ⟨rfl, rfl⟩

end FileStore

/-- What an audit finds can be repaired. The calls that repair the violations succeed
in any order, and then the audit finds nothing and the rows in which the chain held are
all that is left; and where the backing record of an orphan comes back to a table that
asks for no more than it, the audit tells all that it told but this one. -/
theorem findings_repairable (auditor : FileStore.Caller) (db : Database) (vs : List Violation)
    (haudit : (auditor.run db .verify).answer = .ok (.violations vs)) :
    (db.Repairable → ∀ calls : List (FileStore.Caller × Operation),
      (∀ call ∈ calls, call.1.Clear) → (calls.map Prod.snd).Perm (vs.map Violation.repair) →
        FileStore.Caller.Succeed db calls ∧
        (auditor.run (FileStore.Caller.after db calls) .verify).answer = .ok (.violations []) ∧
        db.Repaired (FileStore.Caller.after db calls)) ∧
    ∀ t : Target, .orphanEntity t ∈ vs →
      (∀ b, db.backing t.kind = some b → b.Provisioned) →
      db.isBlocked (.ofKind t.kind) .insertion = false → ∀ c : FileStore.Caller, c.Clear →
        (c.run db (.insertBacking t)).answer = .ok .done ∧
        (auditor.run (c.run db (.insertBacking t)).store .verify).answer =
          .ok (.violations (vs.erase (.orphanEntity t))) := by
  obtain ⟨hreads, haudited, f, hf, hvs⟩ := FileStore.Caller.run_verify_eq_ok.mp haudit
  obtain rfl := Answer.violations.inj hvs
  constructor
  · intro hdb calls hclear hcalls
    obtain ⟨hsucceed, hafter, hwhole, hsame⟩ :=
      FileStore.Caller.repairs_run haudited hdb hf hclear hcalls
    exact ⟨hsucceed, ((audit_exact auditor _).2.2).mpr ⟨hreads, hafter, hwhole⟩,
      hsame.repaired hwhole⟩
  · intro t ht hprovisioned hfree c hc
    have horphan := Database.orphaned_of_mem hf ht
    obtain ⟨hanswer, hstore⟩ := hc.insertBacking haudited horphan hprovisioned hfree
    have habsent : .ofString t.id ∉ db.backingIds t.kind := by
      obtain ⟨-, k, hk, habsent⟩ := horphan
      rwa [← Database.ofString_tag_injective hk] at habsent
    have hb : (db.backing t.kind).isSome := Database.has_ofKind db t.kind ▸ haudited.backing t.kind
    have hleft := hf.without_entity (Database.orphanRows_withBackingRow hb habsent)
      Database.unownedRows_withBackingRow
    refine ⟨hanswer, FileStore.Caller.run_verify_eq_ok.mpr ⟨hreads, ?_, _, hstore ▸ hleft, ?_⟩⟩
    · exact hstore ▸ haudited.mono (Database.sameTables_withBackingRow db _ _)
    · rw [Findings.violations_without, hf.exact.nodup.erase_eq_filter]

/-- The session goes before the entity, and the bot stays with its record; or the record
of the user comes back, and the session alone is told. -/
theorem findings_repairable_halfBacked :
    FileStore.Caller.Succeed .halfBacked
      [(⟨Database.empty.outline, .free, .epoch⟩, .deleteSession ⟨"t"⟩),
        (⟨Database.empty.outline, .free, .epoch⟩, .backingDeleted ⟨.user, "a"⟩)] ∧
    Database.halfBacked.Repaired (FileStore.Caller.after .halfBacked
      [(⟨Database.empty.outline, .free, .epoch⟩, .deleteSession ⟨"t"⟩),
        (⟨Database.empty.outline, .free, .epoch⟩, .backingDeleted ⟨.user, "a"⟩)]) ∧
    (FileStore.Caller.run (FileStore.Caller.run .halfBacked
        ⟨Database.empty.outline, .free, .epoch⟩ (.insertBacking ⟨.user, "a"⟩)).store
      ⟨Database.empty.outline, .free, .epoch⟩ .verify).answer =
        .ok (.violations [.orphanSession ⟨"t"⟩ ⟨.bot, "b"⟩]) := by
  have hclear : FileStore.Caller.Clear ⟨Database.empty.outline, .free, .epoch⟩ :=
    { reads := rfl, writes := Access.free_writes, known := fun n => by cases n <;> nofun }
  have hdb : Database.halfBacked.Repairable := by
    refine ⟨fun _ _ => rfl, fun _ _ => rfl, fun s hs _ => ?_⟩
    rcases List.mem_pair.mp hs with rfl | rfl
    · exact ⟨"s", rfl⟩
    · exact ⟨"t", rfl⟩
  obtain ⟨hrepairs, hback⟩ := findings_repairable ⟨Database.empty.outline, .free, .epoch⟩
    .halfBacked [.orphanEntity ⟨.user, "a"⟩, .orphanSession ⟨"t"⟩ ⟨.bot, "b"⟩] rfl
  obtain ⟨hsucceed, -, hrepaired⟩ := hrepairs hdb
    [(⟨Database.empty.outline, .free, .epoch⟩, .deleteSession ⟨"t"⟩),
      (⟨Database.empty.outline, .free, .epoch⟩, .backingDeleted ⟨.user, "a"⟩)]
    (by simpa using hclear) (List.Perm.swap _ _ _)
  have hprovisioned : ∀ b, Database.halfBacked.backing .user = some b → b.Provisioned := by
    rintro b hb
    obtain rfl := Option.some.inj hb
    rfl
  exact ⟨hsucceed, hrepaired, (hback ⟨.user, "a"⟩ List.mem_cons_self hprovisioned rfl _ hclear).2⟩

/-- A session under an identifier that is no text keeps the entity that it hangs on from
being repaired, although the audit tells it. -/
theorem findings_repairable_untypedIdentifier :
    (Database.unsupported [.ofTarget ⟨.bot, "a"⟩] [.untyped]).Audited ∧
    (∀ s ∈ (Database.unsupported [.ofTarget ⟨.bot, "a"⟩] [.untyped]).sessionRows,
      ∃ k : Kind, s.targetKind = .ofString k.tag) ∧
    (FileStore.Caller.run (.unsupported [.ofTarget ⟨.bot, "a"⟩] [.untyped])
      ⟨Database.empty.outline, .free, .epoch⟩ .verify).answer =
        .ok (.violations [.orphanEntity ⟨.bot, "a"⟩]) ∧
    (FileStore.Caller.run (.unsupported [.ofTarget ⟨.bot, "a"⟩] [.untyped])
      ⟨Database.empty.outline, .free, .epoch⟩ (.backingDeleted ⟨.bot, "a"⟩)).answer =
        .error (.storage (.notText 0 "id")) := by
  refine ⟨Database.unsupported_audited _ _, fun s hs => ?_, rfl, rfl⟩
  obtain rfl := List.mem_singleton.mp hs
  exact ⟨.bot, rfl⟩

end OwnershipRegistry
