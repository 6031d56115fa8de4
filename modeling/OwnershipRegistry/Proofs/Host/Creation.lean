import OwnershipRegistry.Proofs.File.Ready
import OwnershipRegistry.Proofs.Host.Reached

/-!
New sessions, decided. A store in memory looks for the owner first and the file
for the identifier first; where one of the two is in order they agree. A session
that is refused leaves everything as it was, and one that is made is the only
new row.
-/

namespace OwnershipRegistry

theorem Access.Writes.reads_of_under {writtenAhead : Bool} {hold : Option Hold}
    (h : (Access.under writtenAhead hold).Writes) :
    (Access.under writtenAhead hold).reads = true := by
  cases hold with
  | none => rfl
  | some hold => cases hold <;> first | rfl | exact nomatch h.begins

/-- Whether a target is registered in the file. -/
def Database.Registers (db : Database) (t : Target) : Prop := .ofTarget t ∈ db.entityRows

/-- Whether some session in the file has an identifier. -/
def Database.HasSession (db : Database) (id : SessionId) : Prop :=
  ∃ x ∈ db.sessionRows, x.id = .ofString id.text

/-- Whether a target is registered in memory. -/
def MemoryStore.Registers (s : MemoryStore) (t : Target) : Prop := t ∈ s.entities.rows

/-- Whether some session in memory has an identifier. -/
def MemoryStore.HasSession (s : MemoryStore) (id : SessionId) : Prop :=
  ∃ x ∈ s.sessions.rows, x.id = id

/-- What a store in memory makes of a new session. -/
structure MemoryStore.Decides (s s' : MemoryStore) (new : NewSession) (now : Instant)
    (answer : Except RegistryError Answer) : Prop where
  unregistered : ¬s.Registers new.target →
    answer = .error (.unknownEntity new.target) ∧ s' = s
  taken : s.Registers new.target → s.HasSession new.id →
    answer = .error (.duplicateSession new.id) ∧ s' = s
  made : s.Registers new.target → ¬s.HasSession new.id →
    answer = .ok (.session ⟨new.id, new.target, new.name, now⟩) ∧
      s' = { s with sessions := s'.sessions, holdings := s'.holdings } ∧
      ∀ x, x ∈ s'.sessions.rows ↔
        x = ⟨new.id, new.target, new.name, now⟩ ∨ x ∈ s.sessions.rows

/-- What a store on tables makes of a new session. -/
structure Database.Decides (db db' : Database) (new : NewSession) (now : Instant)
    (answer : Except RegistryError Answer) : Prop where
  taken : db.HasSession new.id → answer = .error (.duplicateSession new.id) ∧ db' = db
  unregistered : ¬db.HasSession new.id → ¬db.Registers new.target →
    answer = .error (.unknownEntity new.target) ∧ db' = db
  made : ¬db.HasSession new.id → db.Registers new.target →
    answer = .ok (.session ⟨new.id, new.target, new.name, now⟩) ∧
      db' = { db with sessions := db'.sessions } ∧
      ∀ x, x ∈ db'.sessionRows ↔
        x = .ofSession ⟨new.id, new.target, new.name, now⟩ ∨ x ∈ db.sessionRows

namespace MemoryStore

theorem hasSession_iff {s : MemoryStore} {id : SessionId} :
    s.sessions.contains id.key = true ↔ s.HasSession id := by
  rw [Table.contains_iff]
  constructor
  · rintro ⟨x, hx, hkey⟩
    exact ⟨x, hx, SessionId.key_injective hkey⟩
  · rintro ⟨x, hx, rfl⟩
    exact ⟨x, hx, rfl⟩

theorem createSession_decides (s : MemoryStore) (now : Instant) (new : NewSession) :
    s.Decides (s.run now (.createSession new)).store new now
      (s.run now (.createSession new)).answer := by
  rw [run, createSession]
  by_cases howner : s.hasEntity new.target = true
  · have hregisters : s.Registers new.target := hasEntity_iff.mp howner
    rw [if_neg (by simp [howner])]
    by_cases htaken : s.sessions.contains new.id.key = true
    · rw [if_pos htaken]
      have hhas := hasSession_iff.mp htaken
      exact ⟨fun hno => absurd hregisters hno, fun _ _ => ⟨rfl, rfl⟩,
        fun _ hno => absurd hhas hno⟩
    · rw [if_neg htaken]
      have hfree : ¬s.HasSession new.id := fun hhas => htaken (hasSession_iff.mpr hhas)
      refine ⟨fun hno => absurd hregisters hno, fun _ hhas => absurd hhas hfree,
        fun _ _ => ⟨rfl, rfl, fun x => ?_⟩⟩
      exact Table.mem_rows_insert (Bool.eq_false_iff.mpr htaken)
  · have hno : ¬s.Registers new.target := fun hmem => howner (hasEntity_iff.mpr hmem)
    rw [if_pos (by simp [howner])]
    exact ⟨fun _ => ⟨rfl, rfl⟩, fun hyes => absurd hyes hno, fun hyes => absurd hyes hno⟩

end MemoryStore

namespace FileStore

theorem hasSession_iff {db : Database} {id : SessionId} :
    (db.sessions.getD ∅).contains (.ofString id.text) = true ↔ db.HasSession id :=
  Table.contains_iff

theorem createSession_decides {a : Access} {db : Database} (ha : a.Writes)
    (hs : db.has .sessions = true) (he : db.has .entities = true)
    (hblock : db.isBlocked .sessions .insertion = false) (now : Instant) (new : NewSession) :
    db.Decides (run a now db (.createSession new)).store new now
      (run a now db (.createSession new)).answer := by
  rw [run, createSession_eq ha hs he hblock]
  -- the identifier is looked at before the owner, as in the file
  by_cases htaken : (db.sessions.getD ∅).contains (.ofString new.id.text) = true
  · rw [if_pos htaken]
    have hhas := hasSession_iff.mp htaken
    exact ⟨fun _ => ⟨rfl, rfl⟩, fun hno => absurd hhas hno, fun hno => absurd hhas hno⟩
  · rw [if_neg htaken]
    have hfree : ¬db.HasSession new.id := fun hhas => htaken (hasSession_iff.mpr hhas)
    by_cases howner : db.hasEntityRow (.ofTarget new.target) = true
    · rw [if_pos howner]
      have hregisters : db.Registers new.target := Database.hasEntityRow_iff.mp howner
      refine ⟨fun hhas => absurd hhas hfree, fun _ hno => absurd hregisters hno,
        fun _ _ => ⟨rfl, rfl, fun x => ?_⟩⟩
      refine Database.mem_sessionRows_withSession hs fun y hy hid => hfree ⟨y, hy, hid⟩
    · rw [if_neg howner]
      have hno : ¬db.Registers new.target := fun hmem =>
        howner (Database.hasEntityRow_iff.mpr hmem)
      exact ⟨fun hhas => absurd hhas hfree, fun _ _ => ⟨rfl, rfl⟩,
        fun _ hyes => absurd hyes hno⟩

end FileStore

namespace Host

variable {h : Host} {checked : Bool}

theorem Fit.reads_of_writes {handle : Handle} (hfit : Fit checked h handle)
    (ha : (h.accessOf handle).Writes) : (h.accessOf handle).reads = true := by
  cases handle with
  | memory s => rfl
  | sealed db => rfl
  | common name a => exact hfit.1
  | shared known => exact Access.Writes.reads_of_under ha

/-- What every open store that may write makes of a new session, wherever stores
and visitors have come to. In memory an owner that is not registered comes before
a taken identifier, in the file after it; each other case is decided alike. -/
theorem createSession_decided (hr : Reached checked h) {n : Nat} {handle : Handle}
    (hn : h.handle? n = some handle) (ha : (h.accessOf handle).Writes) (now : Instant)
    (new : NewSession) :
    ∃ o, h.run now n (.createSession new) = some o ∧
      (∀ s, handle = .memory s → ∃ s', o.store.handle? n = some (.memory s') ∧
        s.Decides s' new now o.answer) ∧
      ∀ db, h.tables? handle = some db → ∃ db', o.store.tablesOf? n = some db' ∧
        db.Decides db' new now o.answer := by
  have hh := hr.regular
  have hfit := hh.fit hn
  obtain ⟨s, rfl, -⟩ | ⟨db, hdb⟩ := hfit.memory_or_tables
  · obtain ⟨o, ho, hanswer, hstore⟩ := run_memory hn now (.createSession new)
    refine ⟨o, ho, fun s' hs' => ?_, fun db hdb => by cases hdb⟩
    cases hs'
    rw [hanswer]
    exact ⟨_, hstore, s.createSession_decides now new⟩
  · obtain ⟨o, ho, hanswer, hstore⟩ :=
      hh.run_tables hn hdb (hfit.reads_of_writes ha) now (.createSession new)
    refine ⟨o, ho, fun s hs => ?_, fun db' hdb' => ?_⟩
    · subst hs
      cases hdb
    · obtain rfl := Option.some.inj (hdb.symm.trans hdb')
      obtain ⟨hregular, he, hs⟩ := hh.tables_regular hfit hdb
      rw [hanswer]
      exact ⟨_, hstore, FileStore.createSession_decides ha hs he
        (hregular.isBlocked_eq_false _ _) now new⟩

/-- A store on the file and one in memory, with one session each. -/
def bothStores : Host :=
  let history : List (Instant × Operation) :=
    [(.epoch, .insertBacking ⟨.bot, "a"⟩), (.epoch, .register ⟨.bot, "a"⟩),
      (.epoch, .createSession { id := ⟨"s"⟩, target := ⟨.bot, "a"⟩ })]
  let opened := ((fresh "registry.db").openStore .epoch 1 (.atPath "registry.db")).1
  ((opened.openMemory 2).runAll 1 history).runAll 2 history

theorem bothStores_reached : Reached true bothStores :=
  let opened : Reached true _ := .step (.fresh "registry.db") (.opened .epoch 1 _)
  ((opened.step (.openedMemory 2)).runAll 1 _).runAll 2 _

theorem createSession_decided_bothStores :
    (∃ o, bothStores.run .epoch 1 (.createSession { id := ⟨"s"⟩, target := ⟨.user, "b"⟩ }) =
        some o ∧ o.answer = .error (.duplicateSession ⟨"s"⟩)) ∧
      ∃ o, bothStores.run .epoch 2 (.createSession { id := ⟨"s"⟩, target := ⟨.user, "b"⟩ }) =
        some o ∧ o.answer = .error (.unknownEntity ⟨.user, "b"⟩) := by
  have hfile : bothStores.handle? 1 =
      some (.shared ⟨.declared, .declared, .declared, .declared, .declared⟩) := rfl
  obtain ⟨s, hs⟩ : ∃ s, bothStores.handle? 2 = some (.memory s) := ⟨_, rfl⟩
  constructor
  · obtain ⟨o, ho, -, htables⟩ := createSession_decided bothStores_reached hfile
      ⟨rfl, rfl, rfl⟩ .epoch { id := ⟨"s"⟩, target := ⟨.user, "b"⟩ }
    obtain ⟨db', -, hdecides⟩ := htables _ rfl
    exact ⟨o, ho, (hdecides.taken ⟨_, .head _, rfl⟩).1⟩
  · obtain ⟨o, ho, hmemory, -⟩ := createSession_decided bothStores_reached hs
      ⟨rfl, rfl, rfl⟩ .epoch { id := ⟨"s"⟩, target := ⟨.user, "b"⟩ }
    obtain ⟨s', -, hdecides⟩ := hmemory s rfl
    refine ⟨o, ho, (hdecides.unregistered fun hmem => ?_).1⟩
    obtain rfl : _ = s := Handle.memory.inj (Option.some.inj hs)
    exact absurd (MemoryStore.hasEntity_iff.mpr hmem) (by decide +kernel)

end Host

end OwnershipRegistry
