import OwnershipRegistry.Proofs.File.Corruption
import OwnershipRegistry.Proofs.Listings

/-!
Listings of the file. Rows are kept in order of their cells, and texts are ordered by their
octets; so what is listed of a table, if it can be read at all, is in order, and is what is
read one by one, whatever the file holds.
-/

namespace OwnershipRegistry

open OwnershipRegistry.Except (bind_eq_ok map_eq_ok mapError_eq_ok mapM_eq_ok_iff
  mapM_eq_ok_iff_forall₂ mem_iff_of_mapM_eq_ok)

namespace FileStore

open Database

variable {a : Access} {now : Instant} {c : Caller} {db : Database} {t : Target} {x : Session}

theorem reading_eq_ok {α : Type} {f : Database → Except Fault α} {y : α} :
    (reading a db f).answer = .ok y ↔ a.reads = true ∧ f db = .ok y := by
  show a.read db f = .ok y ↔ _
  rw [Access.read]
  split_ifs with hr
  · rw [mapError_eq_ok, hr, eq_self, true_and]
  · simp [hr]

/-! ### Sessions -/

theorem listSessions_eq_ok {l : List Session} :
    (run a now db (.listSessions t)).answer = .ok (.sessions l) ↔
      (a.reads = true ∧ db.has .sessions = true) ∧
        (db.heldRows t).mapM SessionRow.told = .ok l := by
  have hasked (h : (run a now db (.listSessions t)).answer = .ok (.sessions l)) :
      a.reads = true ∧ db.has .sessions = true := by
    obtain ⟨l', hl', -⟩ := map_eq_ok.mp h
    obtain ⟨xs, hread, -⟩ := bind_eq_ok.mp hl'
    obtain ⟨hr, htexts⟩ := reading_eq_ok.mp hread
    obtain ⟨rows, hrows, -⟩ := bind_eq_ok.mp htexts
    exact ⟨hr, has_of_refusal_eq_none (n := .sessions) rfl (understood_eq_ok.mp hrows).1⟩
  rw [← and_iff_right_of_imp hasked]
  refine and_congr_right fun ⟨hr, hs⟩ => ?_
  rw [listSessions_eq_toldAll hr hs, ← toldAll_eq_ok]
  cases toldAll (db.heldRows t) <;> simp [Except.map]

/-- A row that tells a session is that of its identifier and of its owner. -/
theorem row_of_told {r : SessionRow} (h : r.told = .ok x) :
    r.id = .ofString x.id.text ∧ r.owner = .ofTarget x.target := by
  cases SessionRow.tells_iff.mpr h with
  | session y hkind => exact ⟨rfl, congrArg (EntityRow.mk _) (congrArg Cell.ofString hkind)⟩

theorem getSession_eq_ok :
    (run a now db (.getSession x.id)).answer = .ok (.foundSession (some x)) ↔
      (a.reads = true ∧ db.has .sessions = true) ∧ ∃ r ∈ db.sessionRows, r.told = .ok x := by
  have hasked (h : (run a now db (.getSession x.id)).answer = .ok (.foundSession (some x))) :
      a.reads = true ∧ db.has .sessions = true := by
    obtain ⟨y, hy, -⟩ := map_eq_ok.mp h
    obtain ⟨text, hread, -⟩ := bind_eq_ok.mp hy
    obtain ⟨hr, htext⟩ := reading_eq_ok.mp hread
    exact ⟨hr, has_of_refusal_eq_none (n := .sessions) rfl (understood_eq_ok.mp htext).1⟩
  rw [← and_iff_right_of_imp hasked]
  refine and_congr_right fun ⟨hr, hs⟩ => ?_
  rw [getSession_eq_told hr hs]
  constructor
  · intro h
    cases hrow : db.sessionRow? x.id with
    | none =>
        rw [hrow] at h
        cases h
    | some r =>
        refine ⟨r, (sessionRow?_eq_some.mp hrow).1, ?_⟩
        rw [hrow, Option.mapM_some] at h
        revert h
        cases r.told <;> simp [Except.map]
  · rintro ⟨r, hmem, htold⟩
    rw [sessionRow?_eq_some.mpr ⟨hmem, (row_of_told htold).1⟩, Option.mapM_some, htold]
    rfl

/-! ### Entities -/

/-- The kinds that are read are among the kinds. -/
theorem mapM_parse_eq_ok {es : List (String × String)} {l : List Target} :
    (es.mapM fun (id, tag) => Target.parse id tag) = .ok l ↔
      es = l.map fun t => (t.id, t.kind.tag) := by
  have hparse (p : String × String) (t : Target) :
      Target.parse p.1 p.2 = .ok t ↔ ∃ t' : Target, p = (t'.id, t'.kind.tag) ∧ t = t' := by
    rw [Target.parse_eq_ok]
    constructor
    · rintro ⟨hid, htag⟩
      exact ⟨t, Prod.ext hid htag, rfl⟩
    · rintro ⟨t, rfl, rfl⟩
      exact ⟨rfl, rfl⟩
  refine (mapM_eq_ok_iff hparse es l).trans ?_
  simp

theorem refusal_readEntities_eq_none :
    db.refusal {} .readEntities = none ↔ db.has .entities = true :=
  ⟨has_of_refusal_eq_none (n := .entities) rfl, refusal_readEntities⟩

theorem listEntities_eq_ok {l : List Target} :
    (run a now db .listEntities).answer = .ok (.entities l) ↔
      (a.reads = true ∧ db.has .entities = true) ∧ db.entityRows = l.map .ofTarget := by
  have htexts {es : List (String × String)} : db.entityTexts = .ok es ↔
      db.has .entities = true ∧ db.entityRows = es.map .ofTexts := by
    rw [entityTexts, understood_eq_ok, refusal_readEntities_eq_none]
    exact and_congr_right fun _ => mapM_entityTexts_eq_ok
  constructor
  · intro h
    obtain ⟨l', hl', heq⟩ := map_eq_ok.mp h
    obtain rfl : l' = l := Answer.entities.inj heq
    obtain ⟨es, hread, hparsed⟩ := bind_eq_ok.mp hl'
    obtain ⟨hr, hes⟩ := reading_eq_ok.mp hread
    obtain ⟨he, hrows⟩ := htexts.mp hes
    refine ⟨⟨hr, he⟩, ?_⟩
    rw [hrows, mapM_parse_eq_ok.mp hparsed, List.map_map]
    rfl
  · rintro ⟨⟨hr, he⟩, hrows⟩
    refine map_eq_ok.mpr ⟨l, bind_eq_ok.mpr ⟨l.map fun t => (t.id, t.kind.tag), ?_, ?_⟩, rfl⟩
    · refine reading_eq_ok.mpr ⟨hr, htexts.mpr ⟨he, ?_⟩⟩
      rw [hrows, List.map_map]
      rfl
    · exact mapM_parse_eq_ok.mpr rfl

theorem lookup_eq_ok :
    (run a now db (.lookup t)).answer = .ok (.found (some t)) ↔
      (a.reads = true ∧ db.has .entities = true) ∧ .ofTarget t ∈ db.entityRows := by
  have hpresent {b : Bool} : db.entityPresent t = .ok b ↔
      db.has .entities = true ∧ (db.entities.getD ∅).contains (.ofTarget t) = b := by
    rw [entityPresent, understood_eq_ok, refusal_readEntities_eq_none, Except.ok.injEq]
  rw [← Database.contains_entities, and_assoc, ← hpresent,
    ← reading_eq_ok (f := (·.entityPresent t)), run, Outcome.answer_map]
  cases (reading a db (·.entityPresent t)).answer with
  | error e => simp [Except.map]
  | ok b => cases b <;> simp [Except.map]

/-! ### Agreement -/

theorem map_id_of_mapM_told {rows : List SessionRow} {l : List Session}
    (h : rows.mapM SessionRow.told = .ok l) :
    rows.map SessionRow.id = l.map fun x => .ofString x.id.text := by
  rw [← List.forall₂_eq_eq_eq, List.forall₂_map_left_iff, List.forall₂_map_right_iff]
  exact (mapM_eq_ok_iff_forall₂.mp h).imp fun _ _ htold => (row_of_told htold).1

/-- Whatever the file holds, the listings that are given agree with what is read one by
one. -/
theorem listingsAgree (a : Access) (now : Instant) (db : Database) :
    ListingsAgree fun op => some (run a now db op).answer where
  sessions t l hl := by
    obtain ⟨hasked, htold⟩ := listSessions_eq_ok.mp (Option.some.inj hl)
    refine ⟨?_, fun x => ?_⟩
    · have hascending : ((db.heldRows t).map SessionRow.id).Pairwise fun c c' =>
          compare c c' = .lt := List.pairwise_map.mpr (db.heldRows_ascending t)
      rw [map_id_of_mapM_told htold, List.pairwise_map] at hascending
      exact hascending
    · rw [Option.some.injEq, getSession_eq_ok, and_iff_right hasked,
        mem_iff_of_mapM_eq_ok htold]
      constructor
      · rintro ⟨r, hr, hx⟩
        obtain ⟨hmem, howner⟩ := mem_heldRows.mp hr
        exact ⟨⟨r, hmem, hx⟩, ofTarget_inj.mp ((row_of_told hx).2.symm.trans howner)⟩
      · rintro ⟨⟨r, hmem, hx⟩, rfl⟩
        exact ⟨r, mem_heldRows.mpr ⟨hmem, (row_of_told hx).2⟩, hx⟩
  entities l hl := by
    obtain ⟨hasked, hrows⟩ := listEntities_eq_ok.mp (Option.some.inj hl)
    refine ⟨?_, fun t => ?_⟩
    · have hascending : (l.map EntityRow.ofTarget).Pairwise fun r r' => compare r r' = .lt :=
        hrows ▸ (db.entities.getD ∅).ascending
      refine (List.pairwise_map.mp hascending).imp fun hlt => ?_
      rw [compare_ofTarget] at hlt
      exact Target.compare_eq_lt_iff.mp hlt
    · rw [Option.some.injEq, lookup_eq_ok, and_iff_right hasked, hrows, List.mem_map]
      simp [ofTarget_inj]

/-- The same goes for a store, whatever it remembers of the file. -/
theorem Caller.listingsAgree (c : Caller) (db : Database) :
    ListingsAgree fun op => some (c.run db op).answer where
  sessions t l hl := by
    have hlisted := Option.some.inj hl
    rw [run_eq_of_ok hlisted] at hlisted
    obtain ⟨⟨hr, -⟩, -⟩ := listSessions_eq_ok.mp hlisted
    obtain ⟨hascending, hmem⟩ :=
      (FileStore.listingsAgree c.access c.now db).sessions t l (congrArg some hlisted)
    refine ⟨hascending, fun x => ?_⟩
    rw [hmem, run_of_lacking hr rfl]
  entities l hl := by
    have hlisted := Option.some.inj hl
    rw [run_eq_of_ok hlisted] at hlisted
    obtain ⟨⟨hr, -⟩, -⟩ := listEntities_eq_ok.mp hlisted
    obtain ⟨hascending, hmem⟩ :=
      (FileStore.listingsAgree c.access c.now db).entities l (congrArg some hlisted)
    refine ⟨hascending, fun t => ?_⟩
    rw [hmem, run_of_lacking hr rfl]

end FileStore

end OwnershipRegistry
