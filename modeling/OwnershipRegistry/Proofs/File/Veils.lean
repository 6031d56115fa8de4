import OwnershipRegistry.Proofs.File.Findings

/-!
What hides violations. The kinds of entities are checked when they are added, the
kinds of sessions are not; so a session without an entity may be of a kind that is
none of the kinds. The audit then tells this kind and nothing else, whatever other
rows break the chain. No other row of texts hides anything.
-/

namespace OwnershipRegistry

open OwnershipRegistry.Except (ok_bind mapM_eq_ok mapM_append_of_error)

namespace Database

/-- The cells by which rows that break the chain are named are texts. -/
structure Legible (db : Database) : Prop where
  entities : ∀ r, db.Orphaned r → ∃ id : String, r.id = .ofString id
  sessions : ∀ s, db.Unowned s →
    (∃ id : String, s.id = .ofString id) ∧ (∃ id : String, s.targetId = .ofString id) ∧
      ∃ tag : String, s.targetKind = .ofString tag

/-- Of the sessions without entities whose kinds are none of the kinds, the first
in order, and its kind. -/
structure Veil (db : Database) (s : SessionRow) (tag : String) : Prop where
  unowned : db.Unowned s
  kind : s.targetKind = .ofString tag
  unlisted : Kind.ofTag? tag = none
  first : ∀ s', db.Unowned s' → (∀ k : Kind, s'.targetKind ≠ .ofString k.tag) →
    compare s.id s'.id ≠ .gt

variable {db : Database}

theorem Legible.exists_texts (h : db.Legible) :
    ∃ ss : List (String × String × String),
      db.unownedRows.map SessionRow.label = ss.map labelOfTexts := by
  refine exists_eq_map fun l hl => ?_
  obtain ⟨s, hs, rfl⟩ := List.mem_map.mp hl
  obtain ⟨⟨id, hid⟩, ⟨target, htarget⟩, tag, htag⟩ := h.sessions s (mem_unownedRows.mp hs)
  exact ⟨(id, target, tag), (SessionRow.label_eq_iff.mpr ⟨hid, htarget, htag⟩).symm⟩

/-- Rows of texts have names if the kinds of the sessions are among the kinds. -/
theorem Legible.nameable {ss : List (String × String × String)} (h : db.Legible)
    (hss : db.unownedRows.map SessionRow.label = ss.map labelOfTexts)
    (hlisted : ∀ x ∈ ss, Kind.ofTag? x.2.2 ≠ none) : db.Nameable := by
  refine ⟨h.entities, fun s hs => ?_⟩
  obtain ⟨hid, htarget, -⟩ := h.sessions s hs
  have hmem : s.label ∈ ss.map labelOfTexts :=
    hss ▸ List.mem_map_of_mem (mem_unownedRows.mpr hs)
  obtain ⟨x, hx, hlabel⟩ := List.mem_map.mp hmem
  obtain ⟨k, hk⟩ := Kind.ofTag?_ne_none.mp (hlisted x hx)
  obtain ⟨-, -, hkind⟩ := SessionRow.label_eq_iff.mp hlabel.symm
  exact ⟨hid, htarget, k, hk ▸ hkind⟩

/-- The first session that is read of a kind that is none of the kinds is the
first that there is. -/
theorem exists_veil {before after : List (String × String × String)}
    {x : String × String × String}
    (hss : db.unownedRows.map SessionRow.label = (before ++ x :: after).map labelOfTexts)
    (hbefore : ∀ y ∈ before, Kind.ofTag? y.2.2 ≠ none) (hx : Kind.ofTag? x.2.2 = none) :
    ∃ s, db.Veil s x.2.2 := by
  rw [List.map_append, List.map_cons] at hss
  obtain ⟨us, rest, hrows, hus, hrest⟩ := List.map_eq_append_iff.mp hss
  obtain ⟨s, vs, rfl, hlabel, -⟩ := List.map_eq_cons_iff.mp hrest
  have hmem {s' : SessionRow} : db.Unowned s' ↔ s' ∈ us ∨ s' = s ∨ s' ∈ vs := by
    rw [← mem_unownedRows, hrows, List.mem_append, List.mem_cons]
  refine ⟨s, hmem.mpr (.inr (.inl rfl)), ?_, hx, fun s' hs' hkind => ?_⟩
  · exact (SessionRow.label_eq_iff.mp hlabel).2.2
  · have hascending : (us ++ s :: vs).Pairwise fun a b => compare a.id b.id = .lt :=
      hrows ▸ ((db.sessions.getD ∅).ascending).filter _
    rcases hmem.mp hs' with hs' | rfl | hs'
    · -- what is read before is of one of the kinds
      have hread : s'.label ∈ before.map labelOfTexts := hus ▸ List.mem_map_of_mem hs'
      obtain ⟨y, hy, hlabel'⟩ := List.mem_map.mp hread
      obtain ⟨k, hk⟩ := Kind.ofTag?_ne_none.mp (hbefore y hy)
      obtain ⟨-, -, hkind'⟩ := SessionRow.label_eq_iff.mp hlabel'.symm
      exact absurd (hk ▸ hkind') (hkind k)
    · rw [Std.compare_self]
      decide
    · have hlt := (List.pairwise_cons.mp (List.pairwise_append.mp hascending).2.1).1 s' hs'
      rw [hlt]
      decide

end Database

/-- The first kind that is none of the kinds is all that is told. -/
theorem violationsOf_of_unlisted (ts : List Target) {before after : List (String × String × String)}
    {x : String × String × String} (hbefore : ∀ y ∈ before, Kind.ofTag? y.2.2 ≠ none)
    (hx : Kind.ofTag? x.2.2 = none) :
    violationsOf (ts.map fun t => (t.id, t.kind.tag)) (before ++ x :: after) =
      .error (.invalidKind x.2.2) := by
  rw [violationsOf, Except.bind_eq_error]
  refine .inr ⟨ts.map .orphanEntity, ?_, ?_⟩
  · rw [List.mapM_map]
    exact mapM_eq_ok fun t _ => Except.bind_eq_ok.mpr ⟨t, t.parse_tag, rfl⟩
  · refine Except.bind_eq_error.mpr (.inl (mapM_append_of_error ?_ ?_))
    · intro y hy
      obtain ⟨k, hk⟩ := Kind.ofTag?_ne_none.mp (hbefore y hy)
      have hparse : Target.parse y.2.1 y.2.2 = .ok ⟨k, y.2.1⟩ := Target.parse_eq_ok.mpr ⟨rfl, hk⟩
      exact ⟨.orphanSession ⟨y.1⟩ ⟨k, y.2.1⟩, Except.bind_eq_ok.mpr ⟨_, hparse, rfl⟩⟩
    · have hparse : Target.parse x.2.1 x.2.2 = .error (.invalidKind x.2.2) := by
        rw [Target.parse, Target.ofTag?, hx]
        rfl
      exact Except.bind_eq_error.mpr (.inl hparse)

namespace FileStore

open Database

variable {c : Caller} {db : Database}

/-- An audit that reads texts alone and does not succeed tells the kind of the
veil. -/
theorem Caller.exists_veil (hr : c.access.reads = true) (ha : db.Audited) (h : db.Legible)
    (hn : ¬db.Nameable) :
    ∃ s tag, db.Veil s tag ∧ (c.run db .verify).answer = .error (.invalidKind tag) := by
  obtain ⟨hentities, hsessions⟩ := refusals_eq_none_iff.mpr ha
  obtain ⟨ts, hts⟩ := Findings.exists_targets h.entities
  obtain ⟨ss, hss⟩ := h.exists_texts
  have horphans : db.orphans = .ok (ts.map (fun t => (t.id, t.kind.tag)), ss) := by
    refine Except.bind_eq_ok.mpr ⟨_, orphanEntities_eq_ok.mpr ⟨hentities, ?_⟩,
      Except.bind_eq_ok.mpr ⟨_, orphanSessions_eq_ok.mpr ⟨hsessions, hss⟩, rfl⟩⟩
    rw [hts, List.map_map]
    rfl
  cases hfirst : ss.find? fun x => (Kind.ofTag? x.2.2).isNone with
  | none =>
      have hlisted : ∀ x ∈ ss, Kind.ofTag? x.2.2 ≠ none := by
        simpa using List.find?_eq_none.mp hfirst
      exact absurd (h.nameable hss hlisted) hn
  | some x =>
      obtain ⟨hx, before, after, rfl, hbefore⟩ := List.find?_eq_some_iff_append.mp hfirst
      have hx : Kind.ofTag? x.2.2 = none := Option.isNone_iff_eq_none.mp hx
      have hbefore : ∀ y ∈ before, Kind.ofTag? y.2.2 ≠ none := fun y hy =>
        Option.isSome_iff_ne_none.mp (by simpa using hbefore y hy)
      obtain ⟨s, hs⟩ := Database.exists_veil hss hbefore hx
      refine ⟨s, x.2.2, hs, ?_⟩
      rw [Caller.run_verify hr, FileStore.run, reading_of_ok hr horphans, Outcome.answer_map,
        Outcome.answer_judge]
      show (violationsOf _ _).map _ = _
      rw [violationsOf_of_unlisted ts hbefore hx]
      rfl

end FileStore

/-- What can hide violations from an audit of a file in which kinds of entities are
checked. If each row that breaks the chain has a name, the audit tells them all,
and so finds nothing just if no row breaks it; if not, it tells none of them. Of
rows of texts only a session of a kind that is none of the kinds has no name, and
the first such is all that is told. -/
theorem audit_veiled_by_kind (c : FileStore.Caller) (db : Database)
    (hr : c.access.reads = true) (ha : db.Audited)
    (hlisted : ∀ r ∈ db.entityRows, ∃ k : Kind, r.kind = .ofString k.tag) :
    (db.Nameable → ∃ f : Findings,
      (c.run db .verify).answer = .ok (.violations f.violations) ∧
        (∀ r, db.Unbacked r → r ∈ f.entities.map EntityRow.ofTarget) ∧
        (∀ s, db.Unowned s → s.label ∈ f.sessions.map labelOf) ∧
        (f.violations = [] ↔ (∀ r, ¬db.Unbacked r) ∧ ∀ s, ¬db.Unowned s)) ∧
    (¬db.Nameable → ∃ e, (c.run db .verify).answer = .error e) ∧
    (db.Legible → ¬db.Nameable →
      ∃ s tag, db.Veil s tag ∧ (c.run db .verify).answer = .error (.invalidKind tag)) := by
  have hunbacked (r : EntityRow) : db.Unbacked r ↔ db.Orphaned r := by
    rw [Database.Unbacked, ← Database.mem_orphanRows, Database.orphanRows, List.mem_filter]
    refine and_congr_right fun hmem => ?_
    rw [Database.isOrphan_eq_not_isBacked, Database.backed_iff, and_iff_left (hlisted r hmem),
      Bool.not_eq_true', Bool.not_eq_true]
  refine ⟨fun h => ?_, fun h => ?_, FileStore.Caller.exists_veil hr ha⟩
  · obtain ⟨f, hf⟩ := Findings.exists_of_iff.mpr h
    refine ⟨f, FileStore.Caller.run_verify_eq_ok.mpr ⟨hr, ha, f, hf, rfl⟩, fun r hb => ?_,
      fun s hs => ?_, ?_⟩
    · exact (hf.exact.entities r).mpr ((hunbacked r).mp hb)
    · exact (hf.exact.sessions _).mpr ⟨s, hs, rfl⟩
    · rw [hf.violations_eq_nil_iff, Database.whole_iff_rows]
      simp only [List.eq_nil_iff_forall_not_mem, Database.mem_orphanRows,
        Database.mem_unownedRows, hunbacked]
  · cases hanswer : (c.run db .verify).answer with
    | error e => exact ⟨e, rfl⟩
    | ok x =>
        obtain ⟨-, -, f, hf, -⟩ := FileStore.Caller.run_verify_eq_ok.mp hanswer
        exact absurd (Findings.exists_of_iff.mp ⟨f, hf⟩) h

/-- A session of a kind that is none of the kinds. -/
def SessionRow.ofRobot : SessionRow :=
  ⟨.ofString "s", .ofString "x", .ofString "robot", none, .ofString "2026-01-01T00:00:00Z"⟩

/-- A session of a robot hides an entity without its backing record, which the
audit tells as soon as the session is gone. -/
theorem audit_veiled_by_kind_robot :
    (Database.unsupported [.ofTarget ⟨.bot, "a"⟩] [.ofRobot]).Unbacked (.ofTarget ⟨.bot, "a"⟩) ∧
    (FileStore.Caller.run (.unsupported [.ofTarget ⟨.bot, "a"⟩] [.ofRobot])
      ⟨Database.empty.outline, .free, .epoch⟩ .verify).answer = .error (.invalidKind "robot") ∧
    ∃ f : Findings,
      (FileStore.Caller.run (.unsupported [.ofTarget ⟨.bot, "a"⟩] [])
        ⟨Database.empty.outline, .free, .epoch⟩ .verify).answer = .ok (.violations f.violations) ∧
      .ofTarget ⟨.bot, "a"⟩ ∈ f.entities.map EntityRow.ofTarget := by
  have hlisted (sessions : List SessionRow) :
      ∀ r ∈ (Database.unsupported [.ofTarget ⟨.bot, "a"⟩] sessions).entityRows,
        ∃ k : Kind, r.kind = .ofString k.tag := by
    intro r hr
    obtain rfl := List.mem_singleton.mp hr
    exact ⟨.bot, rfl⟩
  have hunbacked (sessions : List SessionRow) :
      (Database.unsupported [.ofTarget ⟨.bot, "a"⟩] sessions).Unbacked (.ofTarget ⟨.bot, "a"⟩) := by
    refine ⟨List.mem_singleton.mpr rfl, ?_⟩
    rintro ⟨k, -, hid⟩
    cases k <;> exact absurd hid List.not_mem_nil
  have hentities (sessions : List SessionRow) :
      ∀ r, (Database.unsupported [.ofTarget ⟨.bot, "a"⟩] sessions).Orphaned r →
        ∃ id : String, r.id = .ofString id := by
    rintro r ⟨hr, -⟩
    obtain rfl := List.mem_singleton.mp hr
    exact ⟨"a", rfl⟩
  refine ⟨hunbacked _, ?_, ?_⟩
  · obtain ⟨-, -, hveiled⟩ := audit_veiled_by_kind ⟨Database.empty.outline, .free, .epoch⟩
      (.unsupported [.ofTarget ⟨.bot, "a"⟩] [.ofRobot]) rfl (Database.unsupported_audited _ _)
      (hlisted _)
    have hrobot : (Database.unsupported [.ofTarget ⟨.bot, "a"⟩] [.ofRobot]).Unowned .ofRobot := by
      refine ⟨List.mem_singleton.mpr rfl, fun howner => ?_⟩
      exact absurd (Database.contains_entities.mpr howner) (by decide +kernel)
    obtain ⟨s, tag, hveil, hanswer⟩ := hveiled
      ⟨hentities _, fun s hs => by
        obtain rfl := List.mem_singleton.mp hs.1
        exact ⟨⟨"s", rfl⟩, ⟨"x", rfl⟩, "robot", rfl⟩⟩
      (fun h => by
        obtain ⟨-, -, k, hk⟩ := h.sessions _ hrobot
        cases k <;> exact absurd (Cell.ofString_injective hk) (by decide))
    obtain rfl := List.mem_singleton.mp hveil.unowned.1
    obtain rfl := Cell.ofString_injective hveil.kind
    exact hanswer
  · obtain ⟨f, hanswer, htold, -⟩ := (audit_veiled_by_kind
      ⟨Database.empty.outline, .free, .epoch⟩ (.unsupported [.ofTarget ⟨.bot, "a"⟩] []) rfl
      (Database.unsupported_audited _ _) (hlisted _)).1
      ⟨hentities _, fun s hs => absurd hs.1 List.not_mem_nil⟩
    exact ⟨f, hanswer, htold _ (hunbacked _)⟩

end OwnershipRegistry
