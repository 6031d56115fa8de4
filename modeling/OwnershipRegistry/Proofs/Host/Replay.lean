import OwnershipRegistry.Proofs.Host.Accounts
import OwnershipRegistry.Proofs.Host.Agreement
import OwnershipRegistry.Proofs.Memory.Replay

/-!
The log as a journal, for both stores. Whatever runs from a store that holds
nothing, the log alone tells at every moment which backing records, entities and
sessions there are, and how many sessions each removal took. The opening of a store
records nothing, and neither does a call that fails; and where backing records can
be kept the two stores log the same.
-/

namespace OwnershipRegistry

namespace Database

/-- Making the tables of a file without rows makes no rows. -/
theorem Kept.enrolls {db : Database} (h : Database.empty.Kept db) :
    db.Enrolls {} .empty where
  shows := ⟨h.entities.getD_eq, h.sessions.getD_eq⟩
  backing k := by
    have hnone : Database.empty.backing k = none := by cases k <;> rfl
    rcases h.backing k with hk | ⟨-, hk⟩
    · rw [hk, hnone]
      cases k <;> rfl
    · rw [hk]
      cases k <;> rfl
  entities := rfl
  sessions := rfl

end Database

/-! ### Openings record nothing -/

section Openings

variable {a : Access} {now : Instant}

theorem records_applyMigration (db : Database) (m : Migration) :
    records (db.applyMigration a now m).events = [] := by
  unfold Database.applyMigration
  split
  · rfl
  · split
    · rfl
    · rfl
    · simp only
      split
      · rfl
      · split <;> rfl

theorem records_applyMigrations (db : Database) (ms : List Migration) :
    records (db.applyMigrations a now ms).events = [] := by
  induction ms generalizing db with
  | nil => rfl
  | cons m ms ih =>
      simp only [Database.applyMigrations]
      split
      · exact records_applyMigration db m
      · rw [records_append, records_applyMigration, ih, List.nil_append]

theorem records_prepare (c : StoreConfig) (db : Database) :
    records (db.prepare a now c).events = [] := by
  have hmigrate (db : Database) : records (db.migrate a now).events = [] := by
    unfold Database.migrate
    split
    · rfl
    · exact records_applyMigrations _ _
  unfold Database.prepare
  generalize db.provideBacking a (if c.provisionBacking then Kind.all else []) = start
  simp only
  split
  · exact FileStore.records_lockEvents _
  · split
    · rw [records_append, hmigrate]
      rfl
    · rw [records_append, hmigrate, FileStore.records_lockEvents, List.nil_append]

theorem records_openStore (c : StoreConfig) (journal : Option String) (db : Database) :
    records (db.openStore a now c journal).events = [] := by
  have hjournal : records ((journal.filter fun _ => c.writeAhead).toList.map .journalModeSet) =
      [] := by
    cases journal.filter fun _ => c.writeAhead <;> rfl
  rw [Database.openStore, Outcome.events_after, records_append, hjournal, records_prepare,
    List.nil_append]

end Openings

theorem SharedFile.records_openStore (f : SharedFile) (now : Instant) (c : StoreConfig) :
    records (f.openStore now c).events = [] := by
  unfold openStore
  simp only
  split
  · exact FileStore.records_lockEvents _
  · split
    · exact FileStore.records_lockEvents
        (.error (.ofFault .notTables) : Except RegistryError (List Migration))
    · rw [Outcome.events_after, records_append, records_prepare, List.append_nil]
      split_ifs <;> rfl

namespace Host

variable {h : Host} {n : Nat} {c : Census} {r : Roll} {now : Instant} {op : Operation}

theorem records_openAt (h : Host) (now : Instant) (n : Nat) (c : StoreConfig)
    (place : Option Place) : records (h.openAt now n c place).events = [] := by
  match place with
  | none => exact records_openStore c _ _
  | some (.sealed journal changes) => exact records_openStore c _ _
  | some (.common name changes) => exact records_openStore c _ _
  | some .shared => exact SharedFile.records_openStore _ _ c

/-! ### One call -/

/-- The log of a history of operations of a store, each at its instant. -/
def log (h : Host) (n : Nat) : List (Instant × Operation) → List Event
  | [] => []
  | step :: history =>
    match h.run step.1 n step.2 with
    | none => h.log n history
    | some o => o.events ++ o.store.log n history

/-- What a store on tables logs is what the operation of the file logs. -/
theorem Regular.run_events {checked : Bool} (hh : h.Regular checked) {handle : Handle}
    {db : Database} (hn : h.handle? n = some handle) (hdb : h.tables? handle = some db)
    (hreads : (h.accessOf handle).reads = true) {o : Outcome Host Answer}
    (ho : h.run now n op = some o) :
    o.events = (FileStore.run (h.accessOf handle) now db op).events := by
  have hfit := hh.fit hn
  rw [Host.run, hn, Option.map_some, Option.some.injEq] at ho
  subst ho
  cases handle with
  | memory s => cases hdb
  | sealed own =>
      obtain rfl := Option.some.inj hdb
      rfl
  | common name a =>
      have hlookup : h.commons.lookup name = some db := hdb
      simp only [hlookup, Option.getD_some]
      rfl
  | shared known =>
      have hfile : h.file.database = some db := hdb
      have hreads : h.file.access.reads = true := hreads
      simp only [hfile, Option.getD_some, FileStore.runKnowing_eq_run hfit.1 hreads]
      rfl

/-- A call that fails records nothing, wherever its store is. -/
theorem records_run_of_error {o : Outcome Host Answer} (ho : h.run now n op = some o)
    {e : RegistryError} (he : o.answer = .error e) : records o.events = [] := by
  obtain ⟨handle, -, rfl⟩ := Option.map_eq_some_iff.mp ho
  cases handle with
  | memory s =>
      have hevents : (s.run now op).events = [] := MemoryStore.run_events_of_error he
      simp only [hevents, records_nil]
  | sealed db => exact FileStore.run_records_of_error he
  | common name a => exact FileStore.run_records_of_error he
  | shared known =>
      simp only [FileStore.runKnowing] at he ⊢
      split at he
      · exact MemoryStore.records_announcement op
      · exact FileStore.run_records_of_error he

/-- The store under a number is on tables that list a roll, and can read them. -/
structure Keeps (h : Host) (n : Nat) (c : Census) (r : Roll) : Prop where
  regular : h.Regular true
  standing : ∃ handle db, h.handle? n = some handle ∧ h.tables? handle = some db ∧
    (h.accessOf handle).reads = true ∧ db.Enrolls c r

theorem Keeps.lists (hh : h.Keeps n c r) : ∃ db, h.tablesOf? n = some db ∧ db.Lists r := by
  obtain ⟨handle, db, hn, hdb, -, hroll⟩ := hh.standing
  refine ⟨db, ?_, hroll.lists⟩
  rw [tablesOf?, hn, Option.bind_some, hdb]

/-- Whatever locks are in its way, a call leads to the roll that the tables list
after it. -/
theorem Keeps.run (hh : h.Keeps n c r) (now : Instant) (op : Operation) :
    ∃ o c' r', h.run now n op = some o ∧ o.store.Keeps n c' r' ∧ Leads o.events r r' := by
  obtain ⟨handle, db, hn, hdb, hreads, hroll⟩ := hh.standing
  obtain ⟨hregular, -⟩ := hh.regular.tables_regular (hh.regular.fit hn) hdb
  obtain ⟨o, ho, -, htables⟩ := hh.regular.run_tables hn hdb hreads now op
  obtain ⟨handle', hn', hdb'⟩ := Option.bind_eq_some_iff.mp htables
  obtain ⟨c', r', hroll', hleads⟩ :=
    FileStore.run_leads hregular.toWhole hroll (h.accessOf handle) now op
  refine ⟨o, c', r', ho, ⟨hh.regular.run ho, handle', _, hn', hdb', ?_, hroll'⟩, ?_⟩
  · rw [accessOf_run hn ho hn']
    exact hreads
  · rw [hh.regular.run_events hn hdb hreads ho]
    exact hleads

/-! ### Histories -/

theorem Keeps.log_leads (hh : h.Keeps n c r) (history : List (Instant × Operation)) :
    ∃ c' r', (h.runAll n history).Keeps n c' r' ∧ Leads (h.log n history) r r' := by
  induction history generalizing h c r with
  | nil => exact ⟨c, r, hh, .nil r⟩
  | cons step history ih =>
      obtain ⟨o, c', r', ho, hkeeps, hleads⟩ := hh.run step.1 step.2
      obtain ⟨c'', r'', hkeeps', hleads'⟩ := ih hkeeps
      refine ⟨c'', r'', ?_, ?_⟩
      · rw [Host.runAll, List.foldl_cons, ho]
        exact hkeeps'
      · rw [log, ho]
        exact hleads.append hleads'

/-! ### What has just been opened -/

theorem openSealed_keeps (path : String) (now : Instant) (n : Nat) (c : StoreConfig)
    (journal : Option String) (changes : Bool)
    (hok : (openAt.ofSealed (fresh path) now n c journal changes).answer = .ok ()) :
    (openAt.ofSealed (fresh path) now n c journal changes).store.Keeps n {} .empty := by
  have hfresh : (fresh path).Regular true := fresh_regular path
  refine ⟨hfresh.openSealed now n c journal changes, ?_⟩
  obtain ⟨ms, hms, -⟩ := Except.map_eq_ok.mp hok
  rw [openAt.ofSealed]
  simp only [hms]
  exact ⟨_, _, handle?_setHandle _ _ _, rfl, rfl, (Database.kept_openStore _ now c _ _).enrolls⟩

theorem openCommon_keeps (path : String) (now : Instant) (n : Nat) (c : StoreConfig)
    (name : CommonName) (changes : Bool)
    (hok : ((fresh path).openAt now n c (some (.common name changes))).answer = .ok ()) :
    ((fresh path).openAt now n c (some (.common name changes))).store.Keeps n {} .empty := by
  have hfresh : (fresh path).Regular true := fresh_regular path
  refine ⟨hfresh.openCommon now n c name changes, ?_⟩
  obtain ⟨ms, hms, -⟩ := Except.map_eq_ok.mp hok
  simp only [openAt]
  rw [hms]
  exact ⟨_, _, handle?_setHandle _ _ _, lookup_setCommon_self _ _ _, rfl,
    (Database.kept_openStore _ now c _ _).enrolls⟩

theorem openShared_keeps (path : String) (now : Instant) (n : Nat) (c : StoreConfig)
    (hok : ((fresh path).openAt now n c (some .shared)).answer = .ok ()) :
    ((fresh path).openAt now n c (some .shared)).store.Keeps n {} .empty := by
  have hfresh : (fresh path).Regular true := fresh_regular path
  refine ⟨hfresh.openShared now n c, ?_⟩
  obtain ⟨hstore, hvisit, -⟩ :=
    SharedFile.openStore_alone (f := (fresh path).file) rfl rfl now c
  obtain ⟨ms, hms, -⟩ := Except.map_eq_ok.mp hok
  simp only [openAt]
  rw [hms]
  refine ⟨_, _, handle?_setHandle _ _ _, hstore, ?_, (Database.kept_prepare _ now c _).enrolls⟩
  exact congrArg Access.reads (SharedFile.access_of_alone hvisit)

/-- A store that has been opened on a fresh host, with whatever settings, is on
tables that list nothing. -/
theorem openAt_keeps (path : String) (now : Instant) (n : Nat) (c : StoreConfig)
    (place : Option Place) (hok : ((fresh path).openAt now n c place).answer = .ok ()) :
    ((fresh path).openAt now n c place).store.Keeps n {} .empty := by
  match place with
  | none => exact openSealed_keeps path now n c none true hok
  | some (.sealed journal changes) => exact openSealed_keeps path now n c (some journal) changes hok
  | some (.common name changes) => exact openCommon_keeps path now n c name changes hok
  | some .shared => exact openShared_keeps path now n c hok

/-! ### The two stores -/

variable {s : MemoryStore} {l : Option Ledger}

/-- A store on tables that hold what a store in memory holds logs what that logs,
after the announcement of a registration. -/
theorem Holds.run_events (hh : h.Holds n s l) (hs : s.Sound) (now : Instant) (op : Operation) :
    ∃ o, h.run now n op = some o ∧ o.events = op.announcement ++ (s.run now op).events ∧
      o.store.Holds n (s.run now op).store l := by
  obtain ⟨handle, hn, hdb, ha, hreads⟩ := hh.standing
  obtain ⟨o, a, ho, -, -, -, hholds⟩ :=
    hh.run_tables now op fun a ha _ => hs.run_onFile ha now op
  refine ⟨o, ho, ?_, hholds⟩
  rw [hh.regular.run_events hn hdb hreads ho]
  exact hs.run_events ha hreads now op

theorem Holds.after (hh : h.Holds n s l) (hs : s.Sound) (history : List (Instant × Operation)) :
    (h.runAll n history).Holds n (s.after history) l := by
  induction history generalizing h s with
  | nil => exact hh
  | cons step history ih =>
      obtain ⟨o, ho, -, hholds⟩ := hh.run_events hs step.1 step.2
      rw [Host.runAll, List.foldl_cons, ho]
      exact ih hholds (hs.run step.1 step.2)

/-- The log is a journal of what there is. For every history of a store in memory,
and of a store that has been opened on a fresh host with whatever settings, the
lines of the log lead from nothing to what the store holds, and the numbers of
sessions that they tell are right. A call that fails records nothing. Where the
tables of backing records were made, every call logs on them what it logs in
memory, after the announcement of a registration. -/
theorem journal_faithful :
    (∀ history, Leads (MemoryStore.empty.log history) .empty
      (MemoryStore.empty.after history).roll) ∧
    (∀ path opened n c history, ((fresh path).openStore opened n c).2.1 = .ok () →
      ∃ db r, (((fresh path).openStore opened n c).1.runAll n history).tablesOf? n = some db ∧
        db.Lists r ∧
        Leads (((fresh path).openStore opened n c).2.2 ++
          ((fresh path).openStore opened n c).1.log n history) .empty r) ∧
    (∀ (s : MemoryStore) now op e, (s.run now op).answer = .error e →
      (s.run now op).events = []) ∧
    (∀ (h : Host) now n op o e, h.run now n op = some o → o.answer = .error e →
      records o.events = []) ∧
    ∀ path opened n c history now op, c.provisionBacking = true →
      ((fresh path).openStore opened n c).2.1 = .ok () →
      ∃ o, (((fresh path).openStore opened n c).1.runAll n history).run now n op = some o ∧
        o.events = op.announcement ++ ((MemoryStore.empty.after history).run now op).events := by
  have hsound : MemoryStore.empty.Sound := MemoryStore.empty_sound
  refine ⟨fun history => hsound.log_leads history, ?_,
    fun s now op e he => MemoryStore.run_events_of_error he,
    fun h now n op o e ho he => records_run_of_error ho he, ?_⟩
  · intro path opened n c history hopened
    obtain ⟨place, hok, heq⟩ := openAt_of_openStore hopened
    obtain ⟨c', r, hkeeps, hleads⟩ := (openAt_keeps path opened n c place hok).log_leads history
    obtain ⟨db, hdb, hlists⟩ := hkeeps.lists
    rw [heq]
    exact ⟨db, r, hdb, hlists, (Leads.of_records_nil (records_openAt _ _ _ _ _) _).append hleads⟩
  · intro path opened n c history now op hprovision hopened
    obtain ⟨l, hl⟩ := openStore_holds hprovision hopened
    obtain ⟨o, ho, hevents, -⟩ :=
      (hl.after hsound history).run_events (hsound.after history) now op
    exact ⟨o, ho, hevents⟩

/-- After a bot has got a session, the lines of the log name them. -/
theorem journal_faithful_sameIdentifier :
    (∃ db r, (((fresh "registry.db").openStore .epoch 1 (.atPath "registry.db")).1.runAll 1
        sameIdentifier).tablesOf? 1 = some db ∧ db.Lists r ∧
      r.sessions.rows = [⟨⟨"s"⟩, ⟨.bot, "a"⟩⟩]) ∧
    (MemoryStore.empty.run .epoch (.register ⟨.bot, "a"⟩)).events = [] ∧
    (∃ o, (((fresh "registry.db").openStore .epoch 1 (.atPath "registry.db")).1).run .epoch 1
        (.register ⟨.bot, "a"⟩) = some o ∧ records o.events = []) ∧
    ∃ o, (((fresh "registry.db").openStore .epoch 1 (.atPath "registry.db")).1.runAll 1
        sameIdentifier).run .epoch 1 (.deleteBacking ⟨.bot, "a"⟩) = some o ∧
      o.events = [.backingDeleted ⟨.bot, "a"⟩ true 1] := by
  obtain ⟨-, hfile, hmemoryError, hfileError, hsame⟩ := journal_faithful
  have hopened : ((fresh "registry.db").openStore .epoch 1 (.atPath "registry.db")).2.1 = .ok () :=
    (openStore_ok "registry.db" .epoch 1).2 (by decide)
  refine ⟨?_, hmemoryError _ _ _ (.unknownBacking ⟨.bot, "a"⟩) rfl, ?_, ?_⟩
  · obtain ⟨db, r, hdb, hlists, hleads⟩ :=
      hfile "registry.db" .epoch 1 (.atPath "registry.db") sameIdentifier hopened
    refine ⟨db, r, hdb, hlists, ?_⟩
    rw [← hleads.replay]
    rfl
  · obtain ⟨o, ho, he⟩ : ∃ o,
        (((fresh "registry.db").openStore .epoch 1 (.atPath "registry.db")).1).run .epoch 1
          (.register ⟨.bot, "a"⟩) = some o ∧
        o.answer = .error (.unknownBacking ⟨.bot, "a"⟩) := ⟨_, rfl, rfl⟩
    exact ⟨o, ho, hfileError _ _ _ _ _ _ ho he⟩
  · exact hsame "registry.db" .epoch 1 (.atPath "registry.db") sameIdentifier .epoch
      (.deleteBacking ⟨.bot, "a"⟩) rfl hopened

end Host

end OwnershipRegistry
