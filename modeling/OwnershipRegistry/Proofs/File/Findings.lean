import Mathlib.Data.Set.List
import OwnershipRegistry.Proofs.File.Readback
import OwnershipRegistry.Proofs.File.Removal

/-!
What the audit finds in the file. The rows that break the ownership chain are read
in the order of their tables, and then told by targets and session identifiers. So
an audit that succeeds names each of these rows once, in order, and nothing else;
and it succeeds just if there is a name for each of them.
-/

namespace OwnershipRegistry

open OwnershipRegistry.Except (bind_eq_ok mapM_eq_ok_iff)

/-- What an audit has found: entities without backing records, and sessions
without entities. -/
structure Findings where
  entities : List Target
  sessions : List (SessionId × Target)

namespace Findings

def violations (f : Findings) : List Violation :=
  f.entities.map .orphanEntity ++ f.sessions.map fun x => .orphanSession x.1 x.2

theorem violations_eq_nil {f : Findings} :
    f.violations = [] ↔ f.entities = [] ∧ f.sessions = [] := by
  simp [violations]

end Findings

/-! ### Names of rows -/

/-- The row of an entity whose identifier and kind are written so. -/
def EntityRow.ofTexts (x : String × String) : EntityRow := ⟨.ofString x.1, .ofString x.2⟩

/-- The cells that name a session and its owner. -/
def SessionRow.label (s : SessionRow) : Cell × EntityRow := (s.id, s.owner)

/-- The cells that name a session of a target. -/
def labelOf (x : SessionId × Target) : Cell × EntityRow := (.ofString x.1.text, .ofTarget x.2)

/-- The cells that name a session of an owner whose identifier and kind are written
so. -/
def labelOfTexts (x : String × String × String) : Cell × EntityRow :=
  (.ofString x.1, .ofTexts x.2)

theorem SessionRow.label_eq_iff {s : SessionRow} {x : String × String × String} :
    s.label = labelOfTexts x ↔
      s.id = .ofString x.1 ∧ s.targetId = .ofString x.2.1 ∧ s.targetKind = .ofString x.2.2 := by
  simp [label, labelOfTexts, owner, EntityRow.ofTexts]

/-- Things that are images each are the images of things. -/
theorem exists_eq_map {α β : Type} {g : β → α} {as : List α} (h : ∀ a ∈ as, ∃ b, g b = a) :
    ∃ bs : List β, as = bs.map g := by
  have hrange : as ∈ Set.range (List.map g) := by
    rw [Set.range_list_map]
    exact h
  obtain ⟨bs, hbs⟩ := hrange
  exact ⟨bs, hbs.symm⟩

theorem Cell.read_eq_ok {c : Cell} {index : Nat} {column x : String} :
    c.read index column = .ok x ↔ c = .ofString x :=
  ⟨Cell.eq_ofString_of_read, fun h => h ▸ Cell.read_ofString x index column⟩

theorem Kind.ofTag?_eq_some {tag : String} {k : Kind} : ofTag? tag = some k ↔ tag = k.tag := by
  constructor
  · intro h
    unfold ofTag? at h
    split at h <;> cases h <;> rfl
  · rintro rfl
    exact ofTag?_tag k

theorem Kind.ofTag?_ne_none {tag : String} : ofTag? tag ≠ none ↔ ∃ k : Kind, tag = k.tag := by
  simp only [Option.ne_none_iff_exists', Kind.ofTag?_eq_some]

theorem Target.parse_eq_ok {id tag : String} {t : Target} :
    Target.parse id tag = .ok t ↔ id = t.id ∧ tag = t.kind.tag := by
  constructor
  · intro h
    rw [Target.parse] at h
    split at h
    · rename_i t' ht
      obtain rfl := Except.ok.inj h
      obtain ⟨k, hk, rfl⟩ := Option.map_eq_some_iff.mp ht
      exact ⟨rfl, Kind.ofTag?_eq_some.mp hk⟩
    · cases h
  · rintro ⟨rfl, rfl⟩
    exact t.parse_tag

namespace Database

variable {db : Database}

/-- The tables that the audit looks at are there. -/
structure Audited (db : Database) : Prop where
  backing : ∀ k, db.has (.ofKind k) = true
  entities : db.has .entities = true
  sessions : db.has .sessions = true

theorem has_of_firstLacking_eq_none {needed : List (TableName × String)}
    (h : db.outline.firstLacking needed = none) : ∀ n ∈ needed, db.has n.1 = true := fun n hn =>
  lacking_eq_none.mp (List.findSome?_eq_none_iff.mp h n (List.mem_append_right _ hn))

theorem refusals_eq_none_iff :
    db.refusal {} .auditEntities = none ∧ db.refusal {} .auditSessions = none ↔ db.Audited := by
  constructor
  · rintro ⟨hentities, hsessions⟩
    have hentities := has_of_firstLacking_eq_none (Option.map_eq_none_iff.mp hentities)
    have hsessions := has_of_firstLacking_eq_none (Option.map_eq_none_iff.mp hsessions)
    refine ⟨fun k => ?_, hentities (.entities, "k.target_id") (by simp),
      hsessions (.sessions, "s.id") (by simp)⟩
    cases k with
    | bot => exact hentities (.bots, "b.bot_id") (by simp)
    | user => exact hentities (.users, "u.user_id") (by simp)
  · intro h
    exact ⟨refusal_auditEntities h.entities h.backing, refusal_auditSessions h.entities h.sessions⟩

/-- Rows of entities are read if all their cells are texts. -/
theorem mapM_entityTexts_eq_ok {rows : List EntityRow} {es : List (String × String)} :
    (rows.mapM fun r => do
      return (← r.id.read 0 "target_id", ← r.kind.read 1 "target_type") :
        Except Fault (List (String × String))) = .ok es ↔ rows = es.map .ofTexts := by
  have hread (r : EntityRow) (p : String × String) :
      (do return (← r.id.read 0 "target_id", ← r.kind.read 1 "target_type") :
        Except Fault (String × String)) = .ok p ↔ ∃ x, r = .ofTexts x ∧ p = x := by
    simp only [bind_eq_ok, Cell.read_eq_ok, pure, Except.pure, Except.ok.injEq]
    constructor
    · rintro ⟨id, hid, tag, htag, rfl⟩
      exact ⟨_, by rw [EntityRow.ofTexts, ← hid, ← htag], rfl⟩
    · rintro ⟨x, rfl, rfl⟩
      exact ⟨_, rfl, _, rfl, rfl⟩
  refine (mapM_eq_ok_iff hread _ es).trans ?_
  simp

/-- The entities without backing records are read if all their cells are texts. -/
theorem orphanEntities_eq_ok {es : List (String × String)} :
    db.orphanEntities = .ok es ↔
      db.refusal {} .auditEntities = none ∧ db.orphanRows = es.map .ofTexts := by
  rw [orphanEntities, understood_eq_ok]
  exact and_congr_right fun _ => mapM_entityTexts_eq_ok

/-- The sessions without entities are read if the cells of their identifiers and
owners are texts. -/
theorem orphanSessions_eq_ok {ss : List (String × String × String)} :
    db.orphanSessions = .ok ss ↔
      db.refusal {} .auditSessions = none ∧
        db.unownedRows.map SessionRow.label = ss.map labelOfTexts := by
  have hread (l : Cell × EntityRow) (p : String × String × String) :
      (do return (← l.1.read 0 "id", ← l.2.id.read 1 "target_id",
        ← l.2.kind.read 2 "target_type") : Except Fault (String × String × String)) = .ok p ↔
          ∃ x : String × String × String, l = labelOfTexts x ∧ p = x := by
    simp only [bind_eq_ok, Cell.read_eq_ok, pure, Except.pure, Except.ok.injEq]
    constructor
    · rintro ⟨id, hid, targetId, htarget, tag, htag, rfl⟩
      exact ⟨_, by rw [labelOfTexts, EntityRow.ofTexts, ← hid, ← htarget, ← htag], rfl⟩
    · rintro ⟨x, rfl, rfl⟩
      exact ⟨_, rfl, _, rfl, _, rfl, rfl⟩
  rw [orphanSessions, understood_eq_ok]
  refine and_congr_right fun _ => ?_
  -- of each session the audit reads the label alone
  have hlabels := mapM_eq_ok_iff hread (db.unownedRows.map SessionRow.label) ss
  rw [List.mapM_map] at hlabels
  refine hlabels.trans ?_
  simp

end Database

/-- The findings stand for texts whose kinds are among the kinds. -/
theorem violationsOf_eq_ok {es : List (String × String)} {ss : List (String × String × String)}
    {vs : List Violation} :
    violationsOf es ss = .ok vs ↔ ∃ f : Findings,
      es = f.entities.map (fun t => (t.id, t.kind.tag)) ∧
        ss = f.sessions.map (fun x => (x.1.text, x.2.id, x.2.kind.tag)) ∧ vs = f.violations := by
  have hentity (x : String × String) (v : Violation) :
      (do return .orphanEntity (← Target.parse x.1 x.2) : Except RegistryError Violation) =
          .ok v ↔ ∃ t : Target, x = (t.id, t.kind.tag) ∧ v = .orphanEntity t := by
    simp only [bind_eq_ok, Target.parse_eq_ok, pure, Except.pure, Except.ok.injEq]
    constructor
    · rintro ⟨t, ⟨hid, htag⟩, rfl⟩
      exact ⟨t, Prod.ext hid htag, rfl⟩
    · rintro ⟨t, rfl, rfl⟩
      exact ⟨t, ⟨rfl, rfl⟩, rfl⟩
  have hsession (x : String × String × String) (v : Violation) :
      (do return .orphanSession ⟨x.1⟩ (← Target.parse x.2.1 x.2.2) :
        Except RegistryError Violation) = .ok v ↔ ∃ y : SessionId × Target,
          x = (y.1.text, y.2.id, y.2.kind.tag) ∧ v = .orphanSession y.1 y.2 := by
    simp only [bind_eq_ok, Target.parse_eq_ok, pure, Except.pure, Except.ok.injEq]
    constructor
    · rintro ⟨t, ⟨hid, htag⟩, rfl⟩
      exact ⟨(⟨x.1⟩, t), Prod.ext rfl (Prod.ext hid htag), rfl⟩
    · rintro ⟨y, rfl, rfl⟩
      exact ⟨y.2, ⟨rfl, rfl⟩, rfl⟩
  rw [violationsOf, bind_eq_ok]
  constructor
  · rintro ⟨ves, hes, h⟩
    obtain ⟨vss, hss, h⟩ := bind_eq_ok.mp h
    obtain ⟨ts, rfl, rfl⟩ := (mapM_eq_ok_iff hentity _ _).mp hes
    obtain ⟨ys, rfl, rfl⟩ := (mapM_eq_ok_iff hsession _ _).mp hss
    exact ⟨⟨ts, ys⟩, rfl, rfl, (Except.ok.inj h).symm⟩
  · rintro ⟨f, rfl, rfl, rfl⟩
    refine ⟨_, (mapM_eq_ok_iff hentity _ _).mpr ⟨_, rfl, rfl⟩, ?_⟩
    exact bind_eq_ok.mpr ⟨_, (mapM_eq_ok_iff hsession _ _).mpr ⟨_, rfl, rfl⟩, rfl⟩

/-- The findings are the rows that break the chain, in the order of their tables. -/
structure Findings.Of (f : Findings) (db : Database) : Prop where
  entities : db.orphanRows = f.entities.map .ofTarget
  sessions : db.unownedRows.map SessionRow.label = f.sessions.map labelOf

namespace FileStore

open Database

variable {a : Access} {now : Instant} {db : Database} {x : Answer}

theorem access_read_eq_ok {α : Type} {f : Database → Except Fault α} {y : α} :
    a.read db f = .ok y ↔ a.reads = true ∧ f db = .ok y := by
  rw [Access.read]
  cases a.reads with
  | false => simp
  | true => simp [Except.mapError_eq_ok]

/-- The audit succeeds just if all that it looks at is there and has a name. -/
theorem run_verify_eq_ok :
    (run a now db .verify).answer = .ok x ↔
      a.reads = true ∧ db.Audited ∧ ∃ f : Findings, f.Of db ∧ x = .violations f.violations := by
  have hsteps : (run a now db .verify).answer = .ok x ↔
      a.reads = true ∧ ∃ es, db.orphanEntities = .ok es ∧ ∃ ss, db.orphanSessions = .ok ss ∧
        ∃ vs, violationsOf es ss = .ok vs ∧ .violations vs = x := by
    rw [run, Outcome.answer_map, Except.map_eq_ok]
    constructor
    · rintro ⟨vs, h, rfl⟩
      obtain ⟨⟨es, ss⟩, hread, hvs⟩ := bind_eq_ok.mp h
      obtain ⟨ha, horphans⟩ := access_read_eq_ok.mp hread
      obtain ⟨es, hes, horphans⟩ := bind_eq_ok.mp horphans
      obtain ⟨ss, hss, horphans⟩ := bind_eq_ok.mp horphans
      obtain ⟨rfl, rfl⟩ := Prod.mk.inj (Except.ok.inj horphans)
      exact ⟨ha, es, hes, ss, hss, vs, hvs, rfl⟩
    · rintro ⟨ha, es, hes, ss, hss, vs, hvs, rfl⟩
      have horphans : db.orphans = .ok (es, ss) :=
        bind_eq_ok.mpr ⟨es, hes, bind_eq_ok.mpr ⟨ss, hss, rfl⟩⟩
      exact ⟨vs, bind_eq_ok.mpr ⟨(es, ss), access_read_eq_ok.mpr ⟨ha, horphans⟩, hvs⟩, rfl⟩
  rw [hsteps]
  refine and_congr_right fun _ => ?_
  constructor
  · rintro ⟨es, hes, ss, hss, vs, hvs, rfl⟩
    obtain ⟨hentities, hes⟩ := orphanEntities_eq_ok.mp hes
    obtain ⟨hsessions, hss⟩ := orphanSessions_eq_ok.mp hss
    obtain ⟨f, rfl, rfl, rfl⟩ := violationsOf_eq_ok.mp hvs
    refine ⟨refusals_eq_none_iff.mp ⟨hentities, hsessions⟩, f, ⟨?_, ?_⟩, rfl⟩
    · rw [hes, List.map_map]
      rfl
    · rw [hss, List.map_map]
      rfl
  · rintro ⟨hdb, f, hf, rfl⟩
    obtain ⟨hentities, hsessions⟩ := refusals_eq_none_iff.mpr hdb
    refine ⟨_, orphanEntities_eq_ok.mpr ⟨hentities, ?_⟩, _,
      orphanSessions_eq_ok.mpr ⟨hsessions, ?_⟩, _, violationsOf_eq_ok.mpr ⟨f, rfl, rfl, rfl⟩, rfl⟩
    · rw [hf.entities, List.map_map]
      rfl
    · rw [hf.sessions, List.map_map]
      rfl

end FileStore

/-! ### The audit is exact -/

/-- The findings name each row that breaks the chain once, in ascending order, and
nothing else. -/
structure Findings.Exact (f : Findings) (db : Database) : Prop where
  entities : ∀ r, r ∈ f.entities.map EntityRow.ofTarget ↔ db.Orphaned r
  entitiesAscend : f.entities.Pairwise fun a b => compare a b = .lt
  sessions : ∀ l, l ∈ f.sessions.map labelOf ↔ ∃ s, db.Unowned s ∧ s.label = l
  sessionsAscend : f.sessions.Pairwise fun a b => compare a.1.key b.1.key = .lt
  /-- A session of an entity without a backing record is not itself a finding. -/
  disjoint : ∀ x ∈ f.sessions, x.2 ∉ f.entities

/-- There is a name for each row that breaks the chain. -/
structure Database.Nameable (db : Database) : Prop where
  entities : ∀ r, db.Orphaned r → ∃ id : String, r.id = .ofString id
  sessions : ∀ s, db.Unowned s →
    (∃ id : String, s.id = .ofString id) ∧ (∃ id : String, s.targetId = .ofString id) ∧
      ∃ k : Kind, s.targetKind = .ofString k.tag

namespace Findings

variable {f : Findings} {db : Database}

theorem Of.exact (h : f.Of db) : f.Exact db := by
  have hentities (r : EntityRow) : r ∈ f.entities.map EntityRow.ofTarget ↔ db.Orphaned r := by
    rw [← h.entities, Database.mem_orphanRows]
  have hsessions (l : Cell × EntityRow) :
      l ∈ f.sessions.map labelOf ↔ ∃ s, db.Unowned s ∧ s.label = l := by
    rw [← h.sessions, List.mem_map]
    simp only [Database.mem_unownedRows]
  refine ⟨hentities, ?_, hsessions, ?_, ?_⟩
  · have hrows : db.orphanRows.Pairwise fun a b => compare a b = .lt :=
      ((db.entities.getD ∅).ascending).filter _
    rw [h.entities, List.pairwise_map] at hrows
    exact hrows.imp fun {a b} hab => (compare_ofTarget a b).symm.trans hab
  · have hrows : (db.unownedRows.map SessionRow.label).Pairwise
        fun a b => compare a.1 b.1 = .lt :=
      List.pairwise_map.mpr (((db.sessions.getD ∅).ascending).filter _)
    rw [h.sessions, List.pairwise_map] at hrows
    exact hrows
  · intro x hx hmem
    obtain ⟨s, hs, hlabel⟩ := (hsessions _).mp (List.mem_map_of_mem hx)
    have howner : s.owner = .ofTarget x.2 := congrArg Prod.snd hlabel
    exact hs.2 (howner ▸ ((hentities _).mp (List.mem_map_of_mem hmem)).1)

theorem exists_targets (h : ∀ r, db.Orphaned r → ∃ id : String, r.id = .ofString id) :
    ∃ ts : List Target, db.orphanRows = ts.map .ofTarget := by
  refine exists_eq_map fun r hr => ?_
  have hr := Database.mem_orphanRows.mp hr
  obtain ⟨id, hid⟩ := h r hr
  obtain ⟨-, k, hk, -⟩ := hr
  exact ⟨⟨k, id⟩, by cases r; cases hid; cases hk; rfl⟩

/-- Rows that each have a name are named by findings. -/
theorem exists_of_iff : (∃ f : Findings, f.Of db) ↔ db.Nameable := by
  constructor
  · rintro ⟨f, h⟩
    refine ⟨fun r hr => ?_, fun s hs => ?_⟩
    · obtain ⟨t, -, rfl⟩ := List.mem_map.mp ((h.exact.entities r).mpr hr)
      exact ⟨t.id, rfl⟩
    · obtain ⟨x, -, hlabel⟩ := List.mem_map.mp ((h.exact.sessions _).mpr ⟨s, hs, rfl⟩)
      obtain ⟨hid, htarget, hkind⟩ :=
        (SessionRow.label_eq_iff (x := (x.1.text, x.2.id, x.2.kind.tag))).mp hlabel.symm
      exact ⟨⟨_, hid⟩, ⟨_, htarget⟩, _, hkind⟩
  · intro h
    obtain ⟨ts, hts⟩ := exists_targets h.entities
    obtain ⟨ys, hys⟩ : ∃ ys : List (SessionId × Target),
        db.unownedRows.map SessionRow.label = ys.map labelOf := by
      refine exists_eq_map fun l hl => ?_
      obtain ⟨s, hs, rfl⟩ := List.mem_map.mp hl
      obtain ⟨⟨id, hid⟩, ⟨target, htarget⟩, k, hk⟩ :=
        h.sessions s (Database.mem_unownedRows.mp hs)
      refine ⟨(⟨id⟩, ⟨k, target⟩), ?_⟩
      exact (SessionRow.label_eq_iff (x := (id, target, k.tag))).mpr ⟨hid, htarget, hk⟩ |>.symm
    exact ⟨⟨ts, ys⟩, hts, hys⟩

theorem Of.violations_eq_nil_iff (h : f.Of db) : f.violations = [] ↔ db.Whole := by
  rw [violations_eq_nil, Database.whole_iff_rows, h.entities, List.map_eq_nil_iff,
    ← List.map_eq_nil_iff (f := SessionRow.label), h.sessions, List.map_eq_nil_iff]

end Findings

namespace FileStore

open Database

variable {db : Database} {x : Answer}

theorem Caller.run_verify {c : Caller} (hr : c.access.reads = true) (db : Database) :
    c.run db .verify = FileStore.run c.access c.now db .verify := by
  refine Caller.run_of_rechecked hr (fun x hx => ?_) db
  exact Outline.rechecked_of_firstLacking hx

theorem Caller.run_verify_eq_ok {c : Caller} :
    (c.run db .verify).answer = .ok x ↔ c.access.reads = true ∧ db.Audited ∧
      ∃ f : Findings, f.Of db ∧ x = .violations f.violations := by
  rw [← @FileStore.run_verify_eq_ok _ c.now]
  constructor
  · intro h
    rwa [← Caller.run_eq_of_ok h]
  · intro h
    rwa [Caller.run_verify (FileStore.run_verify_eq_ok.mp h).1]

end FileStore

/-- The audit is exact, whatever the file holds and the store remembers: an audit
that succeeds tells the rows that break the chain, each once and in order. It
succeeds just if the file can be read, its tables are there and each such row has
a name, and it finds nothing just if the chain holds. -/
theorem audit_exact (c : FileStore.Caller) (db : Database) :
    (∀ x, (c.run db .verify).answer = .ok x →
      ∃ f : Findings, x = .violations f.violations ∧ f.Exact db) ∧
    ((∃ x, (c.run db .verify).answer = .ok x) ↔
      c.access.reads = true ∧ db.Audited ∧ db.Nameable) ∧
    ((c.run db .verify).answer = .ok (.violations []) ↔
      c.access.reads = true ∧ db.Audited ∧ db.Whole) := by
  simp only [FileStore.Caller.run_verify_eq_ok]
  refine ⟨?_, ?_, ?_⟩
  · rintro x ⟨-, -, f, hf, rfl⟩
    exact ⟨f, rfl, hf.exact⟩
  · rw [← Findings.exists_of_iff]
    constructor
    · rintro ⟨-, hreads, hdb, f, hf, -⟩
      exact ⟨hreads, hdb, f, hf⟩
    · rintro ⟨hreads, hdb, f, hf⟩
      exact ⟨_, hreads, hdb, f, hf, rfl⟩
  · refine and_congr_right fun _ => and_congr_right fun _ => ?_
    constructor
    · rintro ⟨f, hf, hnil⟩
      exact hf.violations_eq_nil_iff.mp (Answer.violations.inj hnil).symm
    · intro h
      obtain ⟨hentities, hsessions⟩ := Database.whole_iff_rows.mp h
      refine ⟨⟨[], []⟩, ⟨hentities, ?_⟩, rfl⟩
      rw [hsessions]
      rfl

/-- A bot and a user under one identifier, of which only the bot has its record,
and a session of each sort. -/
def Database.halfBacked : Database where
  bots := some (.holding (.ofList [.ofString "a"]))
  users := some {}
  entities := some (.ofList [.ofTarget ⟨.user, "a"⟩, .ofTarget ⟨.bot, "a"⟩])
  sessions := some (.ofList
    [⟨.ofString "t", .ofString "b", .ofString "bot", none, .ofString "2026-01-01T00:00:00Z"⟩,
      ⟨.ofString "s", .ofString "a", .ofString "user", none, .ofString "2026-01-01T00:00:00Z"⟩])

theorem audit_exact_halfBacked :
    ∃ f : Findings,
      (FileStore.Caller.run .halfBacked ⟨Database.empty.outline, .free, .epoch⟩ .verify).answer =
        .ok (.violations f.violations) ∧
      f.violations = [.orphanEntity ⟨.user, "a"⟩, .orphanSession ⟨"t"⟩ ⟨.bot, "b"⟩] ∧
      f.Exact .halfBacked := by
  obtain ⟨f, hf, hexact⟩ :=
    (audit_exact ⟨Database.empty.outline, .free, .epoch⟩ .halfBacked).1
      (.violations [.orphanEntity ⟨.user, "a"⟩, .orphanSession ⟨"t"⟩ ⟨.bot, "b"⟩]) rfl
  exact ⟨f, hf ▸ rfl, (Answer.violations.inj hf).symm, hexact⟩

/-- A file with entities and sessions and without backing records. -/
def Database.unsupported (entities : List EntityRow) (sessions : List SessionRow) : Database where
  bots := some {}
  users := some {}
  entities := some (.ofList entities)
  sessions := some (.ofList sessions)

theorem Database.unsupported_audited (entities : List EntityRow) (sessions : List SessionRow) :
    (unsupported entities sessions).Audited :=
  ⟨fun k => by cases k <;> rfl, rfl, rfl⟩

/-- A session of a bot under an identifier that is no text. -/
def SessionRow.untyped : SessionRow :=
  ⟨.blob [0x73], .ofString "a", .ofString "bot", none, .ofString "2026-01-01T00:00:00Z"⟩

/-- The audit gives up at an identifier that is no text, it passes over an entity
that is of none of the kinds, and it does not get past a lock. -/
theorem audit_untypedIdentifier :
    ((∀ s ∈ (Database.unsupported [] [.untyped]).sessionRows,
        ∃ k : Kind, s.targetKind = .ofString k.tag) ∧
      (FileStore.run .free .epoch (.unsupported [] [.untyped]) .verify).answer =
        .error (.storage (.notText 0 "id"))) ∧
    ((∃ r ∈ (Database.unsupported [.ofTexts ("a", "robot")] []).entityRows,
        ¬(Database.unsupported [.ofTexts ("a", "robot")] []).Backed r) ∧
      (FileStore.run .free .epoch (.unsupported [.ofTexts ("a", "robot")] []) .verify).answer =
        .ok (.violations [])) ∧
    (Database.unsupported [] []).Whole ∧
      (FileStore.run (.under false (some .exclusive)) .epoch (.unsupported [] []) .verify).answer =
        .error .busy := by
  refine ⟨⟨fun s hs => ?_, rfl⟩, ⟨⟨_, List.mem_singleton.mpr rfl, ?_⟩, rfl⟩, ?_, rfl⟩
  · obtain rfl := List.mem_singleton.mp hs
    exact ⟨.bot, rfl⟩
  · rintro ⟨k, hk, -⟩
    cases k <;> exact absurd (Cell.ofString_injective hk) (by decide)
  · exact Database.whole_iff_rows.mpr ⟨rfl, rfl⟩

end OwnershipRegistry
