import OwnershipRegistry.Proofs.File.Image
import OwnershipRegistry.Proofs.File.Insertion
import OwnershipRegistry.Proofs.Host.Creation

/-!
Registrations, decided. Memory looks at the entity and at the backing record; the
file makes one insertion and is told which rule it breaks. Both come to the same:
a target that is registered already is a duplicate, one without a backing record
of its own kind is unknown, and any other is added. The rows of the file may be
any rows at all.
-/

namespace OwnershipRegistry

section Decisions

variable {σ κ : Type}

/-- How a registry decides about a target, given whether the target is registered,
whether it has a backing record, and what it means to add it. -/
structure RegistersExactly (run : σ → κ → Operation → Outcome σ Answer) (allowed : κ → Prop)
    (t : Target) (registered backed : Prop) (adds : σ → Prop) (s : σ) : Prop where
  duplicate : ∀ c, allowed c →
    ((run s c (.register t)).answer = .error (.duplicateEntity t) ↔ registered)
  unbacked : ∀ c, allowed c →
    ((run s c (.register t)).answer = .error (.unknownBacking t) ↔ ¬registered ∧ ¬backed)
  made : ∀ c, allowed c → ¬registered → backed →
    (run s c (.register t)).answer = .ok (.entity t) ∧ adds (run s c (.register t)).store
  refused : ∀ c, allowed c → registered ∨ ¬backed → (run s c (.register t)).store = s
  ensured : ∀ c, allowed c →
    ((run s c (.ensureRegistered t)).answer = .ok (.entity t) ↔ registered ∨ backed)
  unsupported : ∀ c, allowed c → ((run s c (.ensureRegistered t)).answer =
    .error (.unknownBacking t) ↔ ¬(registered ∨ backed))
  /-- What is ensured is what a registration leaves. -/
  store : ∀ c, allowed c →
    (run s c (.ensureRegistered t)).store = (run s c (.register t)).store
  found : ∀ c c', allowed c → allowed c' → ∀ x,
    (run s c (.ensureRegistered t)).answer = .ok x →
      (run (run s c (.ensureRegistered t)).store c' (.lookup t)).answer = .ok (.found (some t))
  again : ∀ c c', allowed c → allowed c' →
    (run (run s c (.ensureRegistered t)).store c' (.ensureRegistered t)).answer =
        (run s c (.ensureRegistered t)).answer ∧
      (run (run s c (.ensureRegistered t)).store c' (.ensureRegistered t)).store =
        (run s c (.ensureRegistered t)).store
  /-- The kind of a target is never in doubt, whoever calls. -/
  listed : ∀ c tag, (run s c (.register t)).answer ≠ .error (.invalidKind tag) ∧
    (run s c (.ensureRegistered t)).answer ≠ .error (.invalidKind tag)

/-- Stores that hold something, and in which two tests decide about a target: one
that passes the second test alone is added, and passes the first test then. -/
structure Admits (run : σ → κ → Operation → Outcome σ Answer) (allowed : κ → Prop) (t : Target)
    (holds : σ → Prop) (registered backed : σ → Bool) (add : σ → σ) : Prop where
  register : ∀ {s c}, holds s → allowed c →
    (run s c (.register t)).answer =
        (if registered s then .error (.duplicateEntity t)
        else if backed s then .ok (.entity t) else .error (.unknownBacking t)) ∧
      (run s c (.register t)).store = if !registered s && backed s then add s else s
  ensure : ∀ {s c}, holds s → allowed c →
    (run s c (.ensureRegistered t)).answer =
        (if registered s || backed s then .ok (.entity t) else .error (.unknownBacking t)) ∧
      (run s c (.ensureRegistered t)).store = if !registered s && backed s then add s else s
  lookup : ∀ {s c}, holds s → allowed c →
    (run s c (.lookup t)).answer = .ok (.found (if registered s then some t else none))
  keeps : ∀ {s}, holds s → holds (add s)
  admitted : ∀ {s}, holds s → registered s = false → registered (add s) = true

variable {run : σ → κ → Operation → Outcome σ Answer} {allowed : κ → Prop} {t : Target}
  {holds : σ → Prop} {registered backed : σ → Bool} {add : σ → σ}

/-- What has been ensured is registered, if it could be, and ensuring it once more
does nothing. -/
theorem Admits.settled (h : Admits run allowed t holds registered backed add) {s s' : σ}
    (hs : holds s) (hs' : s' = if !registered s && backed s then add s else s) :
    holds s' ∧ (registered s' || backed s') = (registered s || backed s) ∧
      (!registered s' && backed s') = false ∧
        ((registered s || backed s) = true → registered s' = true) := by
  cases hregistered : registered s with
  | true =>
      obtain rfl : s' = s := by rw [hs', hregistered]; rfl
      simp [hs, hregistered]
  | false =>
      cases hbacked : backed s with
      | true =>
          obtain rfl : s' = add s := by rw [hs', hregistered, hbacked]; rfl
          simp [h.keeps hs, h.admitted hs hregistered]
      | false =>
          obtain rfl : s' = s := by rw [hs', hregistered, hbacked]; rfl
          simp [hs, hregistered, hbacked]

theorem Admits.registersExactly (h : Admits run allowed t holds registered backed add) {s : σ}
    (hs : holds s) {R B : Prop} {adds : σ → Prop} (hr : registered s = true ↔ R)
    (hb : backed s = true ↔ B) (hadds : ¬R → adds (add s))
    (hlisted : ∀ c tag, (run s c (.register t)).answer ≠ .error (.invalidKind tag) ∧
      (run s c (.ensureRegistered t)).answer ≠ .error (.invalidKind tag)) :
    RegistersExactly run allowed t R B adds s where
  duplicate c hc := by
    rw [(h.register hs hc).1, ← hr]
    split_ifs with hregistered hbacked
    · simp [hregistered]
    · simp [hregistered]
    · simp [hregistered]
  unbacked c hc := by
    rw [(h.register hs hc).1, ← hr, ← hb]
    split_ifs with hregistered hbacked
    · simp [hregistered]
    · simp [hbacked]
    · simp [hregistered, hbacked]
  made c hc hR hB := by
    obtain ⟨hanswer, hstore⟩ := h.register hs hc
    have hregistered : registered s = false := Bool.eq_false_iff.mpr fun hyes => hR (hr.mp hyes)
    rw [hanswer, hstore, hregistered, hb.mpr hB]
    exact ⟨rfl, hadds hR⟩
  refused c hc hrefused := by
    have hnothing : (!registered s && backed s) = false := by
      rcases hrefused with hR | hB
      · rw [hr.mpr hR]
        rfl
      · rw [Bool.eq_false_iff.mpr fun hyes => hB (hb.mp hyes), Bool.and_false]
    rw [(h.register hs hc).2, hnothing]
    rfl
  ensured c hc := by
    rw [(h.ensure hs hc).1, ← hr, ← hb, ← Bool.or_eq_true]
    split_ifs with hpass <;> simp [hpass]
  unsupported c hc := by
    rw [(h.ensure hs hc).1, ← hr, ← hb, ← Bool.or_eq_true]
    split_ifs with hpass <;> simp [hpass]
  store c hc := by rw [(h.ensure hs hc).2, (h.register hs hc).2]
  found c c' hc hc' x hx := by
    obtain ⟨hanswer, hstore⟩ := h.ensure hs hc
    obtain ⟨hholds, -, -, hregistered⟩ := h.settled hs hstore
    rw [hanswer] at hx
    split_ifs at hx with hpass
    rw [h.lookup hholds hc', hregistered hpass]
    rfl
  again c c' hc hc' := by
    obtain ⟨hanswer, hstore⟩ := h.ensure hs hc
    obtain ⟨hholds, hsame, hnothing, -⟩ := h.settled hs hstore
    obtain ⟨hanswer', hstore'⟩ := h.ensure hholds hc'
    rw [hanswer', hsame, hanswer, hstore', hnothing]
    exact ⟨rfl, rfl⟩
  listed := hlisted

end Decisions

namespace MemoryStore

/-- A store in memory with one entity more. -/
structure Adds (t : Target) (s s' : MemoryStore) : Prop where
  entities : ∀ x, x ∈ s'.entities.rows ↔ x = t ∨ x ∈ s.entities.rows
  others : s' = { s with entities := s'.entities }

variable {s : MemoryStore} {t : Target}

theorem admits (t : Target) :
    Admits run (fun _ => True) t (fun _ => True) (fun s => s.hasEntity t)
      (fun s => s.hasBacking t) fun s => { s with entities := s.entities.insert t } where
  register {s c} _ _ := by
    rw [run, Outcome.answer_map, Outcome.store_map, register]
    cases s.hasEntity t <;> cases s.hasBacking t <;> exact ⟨rfl, rfl⟩
  ensure {s c} _ _ := by
    rw [run, Outcome.answer_map, Outcome.store_map, register]
    cases s.hasEntity t <;> cases s.hasBacking t <;> exact ⟨rfl, rfl⟩
  lookup _ _ := rfl
  keeps _ := trivial
  admitted {s} _ _ := by
    rw [hasEntity]
    exact Table.contains_insert.mpr (.inl rfl)

/-- Every store in memory decides exactly. -/
theorem registersExactly (s : MemoryStore) (t : Target) :
    RegistersExactly run (fun _ => True) t (s.Registers t) (t.id ∈ (s.backing t.kind).rows)
      (Adds t s) s := by
  refine (admits t).registersExactly trivial hasEntity_iff hasBacking_iff
    (fun hfree => ⟨?_, rfl⟩) ?_
  · intro x
    refine Table.mem_rows_insert ?_
    exact Bool.eq_false_iff.mpr fun hmem => hfree (hasEntity_iff.mp hmem)
  · intro c tag
    rw [((admits t).register trivial trivial).1, ((admits t).ensure trivial trivial).1]
    constructor
    · split_ifs <;> simp
    · split_ifs <;> simp

end MemoryStore

namespace Database

/-- A file with one entity more. -/
structure Adds (t : Target) (db db' : Database) : Prop where
  entities : ∀ r, r ∈ db'.entityRows ↔ r = .ofTarget t ∨ r ∈ db.entityRows
  others : db' = { db with entities := db'.entities }

/-- The tables that a registration needs are there, and no other program blocks new
entities. -/
structure Enrolling (db : Database) : Prop where
  backing : ∀ k, db.has (.ofKind k) = true
  entities : db.has .entities = true
  unblocked : db.isBlocked .entities .insertion = false

variable {db : Database} {t : Target}

theorem Enrolling.withEntity (h : db.Enrolling) (r : EntityRow) : (db.withEntity r).Enrolling where
  backing k := by rw [has_withEntity, h.backing]
  entities := by rw [has_withEntity, h.entities]
  unblocked := h.unblocked

end Database

namespace FileStore

open Database

/-- A caller whom no lock is in the way of, and who remembers no unrelated table in
the place of one of backing records. -/
structure Caller.Plain (c : Caller) : Prop extends Caller.Unhindered c where
  known : ∀ k, c.known.standing (.ofKind k) ≠ .unrelated

variable {c : Caller} {db : Database} {t : Target}

theorem Caller.Plain.run_registration (hc : c.Plain) {op : Operation}
    (hop : op.firstStatement = .insertEntity) (db : Database) :
    c.run db op = FileStore.run c.access c.now db op := by
  refine Caller.run_of_rechecked hc.reads (fun x hx => ?_) db
  rw [hop] at hx
  exact Outline.rechecked_of_insertEntity hc.known hx

theorem Caller.lookup_eq (hr : c.access.reads = true) (he : db.has .entities = true) :
    (c.run db (.lookup t)).answer =
      .ok (.found (if (db.entities.getD ∅).contains (.ofTarget t) then some t else none)) := by
  have hrun : c.run db (.lookup t) = FileStore.run c.access c.now db (.lookup t) := by
    refine Caller.run_of_rechecked hr (fun x hx => ?_) db
    exact Outline.rechecked_of_lacking hx
  have hpresent : db.entityPresent t = .ok ((db.entities.getD ∅).contains (.ofTarget t)) :=
    understood_eq (refusal_readEntities he) _
  rw [hrun, FileStore.run, reading_of_ok hr hpresent]
  rfl

theorem admits (t : Target) :
    Admits Caller.run Caller.Plain t Enrolling
      (fun db => (db.entities.getD ∅).contains (.ofTarget t))
      (fun db => db.hasBackingRow t.kind (.ofString t.id))
      (fun db => db.withEntity (.ofTarget t)) where
  register {db c} hdb hc := by
    rw [hc.run_registration rfl, FileStore.run, Outcome.answer_map, Outcome.store_map,
      register_eq_of_has hc.writes hdb.backing hdb.entities hdb.unblocked]
    cases (db.entities.getD ∅).contains (.ofTarget t) <;>
      cases db.hasBackingRow t.kind (.ofString t.id) <;> exact ⟨rfl, rfl⟩
  ensure {db c} hdb hc := by
    rw [hc.run_registration rfl, FileStore.run, Outcome.answer_map, Outcome.store_map,
      register_eq_of_has hc.writes hdb.backing hdb.entities hdb.unblocked]
    cases (db.entities.getD ∅).contains (.ofTarget t) <;>
      cases db.hasBackingRow t.kind (.ofString t.id) <;> exact ⟨rfl, rfl⟩
  lookup hdb hc := Caller.lookup_eq hc.reads hdb.entities
  keeps hdb := hdb.withEntity _
  admitted {db} hdb hfree := by
    rw [contains_entities]
    refine (mem_entityRows_withEntity hdb.entities fun hmem => ?_).mpr (.inl rfl)
    exact Bool.false_ne_true (hfree.symm.trans (contains_entities.mpr hmem))

/-- A file decides exactly, whatever rows it holds. -/
theorem registersExactly (hdb : db.Enrolling) (t : Target) :
    RegistersExactly Caller.run Caller.Plain t (db.Registers t)
      (.ofString t.id ∈ db.backingIds t.kind) (Database.Adds t db) db := by
  refine (admits t).registersExactly hdb contains_entities any_backing
    (fun hfree => ⟨fun r => ?_, rfl⟩) fun c tag => ⟨fun h => ?_, fun h => ?_⟩
  · exact mem_entityRows_withEntity hdb.entities hfree
  · exact (Caller.register_rejection h).ne_invalidKind tag rfl
  · exact (Caller.ensureRegistered_rejection h).1.ne_invalidKind tag rfl

end FileStore

/-- Registrations are decided exactly, in every store in memory and in every file
whose tables are there and to which new entities may be added, whatever its rows.
Whatever else may be in the way in a file, an error of a registration is right
about it. -/
theorem registrations_decided :
    (∀ (s : MemoryStore) (t : Target),
      RegistersExactly MemoryStore.run (fun _ => True) t (s.Registers t)
        (t.id ∈ (s.backing t.kind).rows) (MemoryStore.Adds t s) s) ∧
    (∀ (db : Database) (t : Target), db.Enrolling →
      RegistersExactly FileStore.Caller.run FileStore.Caller.Plain t (db.Registers t)
        (.ofString t.id ∈ db.backingIds t.kind) (Database.Adds t db) db) ∧
    ∀ (c : FileStore.Caller) (db : Database) (t : Target) (e : RegistryError),
      (c.run db (.register t)).answer = .error e → FileStore.Rejection db t e :=
  ⟨MemoryStore.registersExactly, fun _ t hdb => FileStore.registersExactly hdb t,
    fun _ _ _ _ h => FileStore.Caller.register_rejection h⟩

/-- A file with the record of a bot, a user without its record under the same
identifier, and a session without its entity. -/
def Database.looseEnds : Database where
  bots := some (.holding (.ofList [.ofString "a"]))
  users := some {}
  entities := some (.ofList [.ofTarget ⟨.user, "a"⟩])
  sessions := some (.ofList
    [⟨.ofString "s", .ofString "b", .ofString "bot", none, .ofString "2026-01-01T00:00:00Z"⟩])

/-- The user is a duplicate although its record is gone, and is ensured; the owner of
the session is unknown; and the bot is registered beside the user. -/
theorem registrations_decided_looseEnds :
    (FileStore.Caller.run .looseEnds ⟨Database.empty.outline, .free, .epoch⟩
      (.register ⟨.user, "a"⟩)).answer = .error (.duplicateEntity ⟨.user, "a"⟩) ∧
    (FileStore.Caller.run .looseEnds ⟨Database.empty.outline, .free, .epoch⟩
      (.ensureRegistered ⟨.user, "a"⟩)).answer = .ok (.entity ⟨.user, "a"⟩) ∧
    (FileStore.Caller.run .looseEnds ⟨Database.empty.outline, .free, .epoch⟩
      (.register ⟨.bot, "b"⟩)).answer = .error (.unknownBacking ⟨.bot, "b"⟩) ∧
    (FileStore.Caller.run .looseEnds ⟨Database.empty.outline, .free, .epoch⟩
      (.register ⟨.bot, "a"⟩)).answer = .ok (.entity ⟨.bot, "a"⟩) ∧
    Database.Adds ⟨.bot, "a"⟩ .looseEnds
      (FileStore.Caller.run .looseEnds ⟨Database.empty.outline, .free, .epoch⟩
        (.register ⟨.bot, "a"⟩)).store := by
  obtain ⟨-, hfile, -⟩ := registrations_decided
  have hdb : Database.looseEnds.Enrolling := ⟨fun k => by cases k <;> rfl, rfl, rfl⟩
  have hc : FileStore.Caller.Plain ⟨Database.empty.outline, .free, .epoch⟩ :=
    { reads := rfl, writes := Access.free_writes, known := fun k => by cases k <;> nofun }
  have hregistered (t : Target) : Database.looseEnds.Registers t ↔ t = ⟨.user, "a"⟩ := by
    rw [← ofTarget_inj]
    exact List.mem_singleton
  have hbot := hfile .looseEnds ⟨.bot, "a"⟩ hdb
  have hother := hfile .looseEnds ⟨.bot, "b"⟩ hdb
  have huser := hfile .looseEnds ⟨.user, "a"⟩ hdb
  have hmade := hbot.made _ hc (fun h => absurd ((hregistered _).mp h) (by decide))
    (List.mem_singleton.mpr rfl)
  refine ⟨(huser.duplicate _ hc).mpr ((hregistered _).mpr rfl),
    (huser.ensured _ hc).mpr (.inl ((hregistered _).mpr rfl)),
    (hother.unbacked _ hc).mpr ⟨fun h => absurd ((hregistered _).mp h) (by decide), fun h => ?_⟩,
    hmade.1, hmade.2⟩
  exact absurd (Cell.ofString_injective (List.mem_singleton.mp h)) (by decide)

end OwnershipRegistry
