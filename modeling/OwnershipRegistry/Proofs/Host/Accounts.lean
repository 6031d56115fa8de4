import OwnershipRegistry.Proofs.File.Accounts
import OwnershipRegistry.Proofs.Host.Shared
import OwnershipRegistry.Proofs.Memory.Accounts

/-!
The stores on the shared file as one registry. Any number of them are opened and
closed, with whatever configurations, and the calls of all of them make one
journal; the file shows its census at every moment, whichever store is asked. So
for any number of stores on the file, as for one in memory, the journal accounts
for every entity and every session.
-/

namespace OwnershipRegistry.Host

variable {h h' : Host} {c : Census} {e : Entry} {now : Instant} {n : Nat}

/-- The stores on the shared file that come about from a fresh host, which calls
reach in any order. -/
def registry : Registry Host where
  start h := ∃ path, h = fresh path
  idle h h' := (∃ now n c, h' = (h.openStore now n c).1) ∨ ∃ n, h' = (h.close n).1
  call h e h' := ∃ n known op o o', h.handle? n = some (.shared known) ∧ e.call = op.work ∧
    h.run e.now n op.work = some o ∧ o.answer = e.answer ∧
    h.run e.now n op = some o' ∧ o'.store = h'
  asked h ask := ∃ n known now, h.handle? n = some (.shared known) ∧
    ask = fun op => (h.run now n op).map Outcome.answer

/-- The shared file shows a census, and nobody but stores uses it. -/
structure Shows (c : Census) (h : Host) : Prop where
  reached : Reached true h
  alone : h.file.visit = none
  file : ∃ db, h.file.database = some db ∧ db.Paired ∧ db.Shows c

theorem shows_fresh (path : String) : Shows {} (fresh path) where
  reached := .fresh path
  alone := rfl
  file := ⟨.empty, rfl, rfl, Database.empty_shows⟩

theorem Shows.close (hs : Shows c h) (n : Nat) : Shows c (h.close n).1 :=
  ⟨hs.reached.step (.closed n), hs.alone, hs.file⟩

/-- Opening a store changes nothing that the census is about. -/
theorem Shows.openStore (hs : Shows c h) (now : Instant) (n : Nat) (config : StoreConfig) :
    Shows c (h.openStore now n config).1 := by
  obtain ⟨db, hdb, hpaired, hshows⟩ := hs.file
  obtain ⟨db₀, hdb₀, hregular⟩ := hs.reached.regular.file
  obtain rfl := Option.some.inj (hdb.symm.trans hdb₀)
  obtain ⟨hstore, hvisit, -⟩ := SharedFile.openStore_alone hdb hs.alone now config
  have hkept := Database.kept_prepare .free now config db
  have hshows' : (db.prepare .free now config).store.Shows c :=
    ⟨hkept.entities.getD_eq.trans hshows.entities,
      hkept.sessions.getD_eq.trans hshows.sessions⟩
  have hpaired' := hpaired.prepare hregular .free now config
  have hreached := hs.reached.step (.opened now n config)
  rcases (openStore_opened h now n config).file_eq with hsame | hopened
  · exact ⟨hreached, hsame ▸ hs.alone, hsame ▸ hs.file⟩
  · refine ⟨hreached, ?_, ?_⟩
    · rw [hopened, hvisit]
    · rw [hopened, hstore]
      exact ⟨_, rfl, hpaired', hshows'⟩

/-- An open store answers by the tables of the file. -/
theorem Shows.run (hs : Shows c h) {known : Outline} (hn : h.handle? n = some (.shared known))
    (now : Instant) (op : Operation) :
    ∃ db o, h.file.database = some db ∧ db.Answers c ∧ h.run now n op = some o ∧
      o.answer = (FileStore.run .free now db op).answer ∧
      o.store.file.database = some (FileStore.run .free now db op).store ∧
      o.store.file.visit = none := by
  have hregular := hs.reached.regular
  obtain ⟨db, hdb, hpaired, hshows⟩ := hs.file
  obtain ⟨hknown, db₀, hdb₀, he, hsess⟩ := hregular.fit hn
  obtain rfl := Option.some.inj (hdb.symm.trans hdb₀)
  obtain ⟨db₁, hdb₁, hreg⟩ := hregular.file
  obtain rfl := Option.some.inj (hdb.symm.trans hdb₁)
  have hanswers : db.Answers c := ⟨hreg, he, hsess, hpaired, hshows⟩
  have haccess : h.file.access = .free := SharedFile.access_of_alone hs.alone
  have hreads : Access.free.reads = true := rfl
  rw [Host.run, hn, Option.map_some]
  refine ⟨db, _, hdb, hanswers, rfl, ?_⟩
  simp only [hdb, Option.getD_some, haccess, FileStore.runKnowing_eq_run hknown hreads]
  exact ⟨trivial, SharedFile.database_put _ _, (SharedFile.visit_put _ _).trans hs.alone⟩

theorem registry_keeps : registry.Keeps Shows where
  start h := by
    rintro ⟨path, rfl⟩
    exact shows_fresh path
  idle c h h' hs := by
    rintro (⟨now, n, config, rfl⟩ | ⟨n, rfl⟩)
    · exact hs.openStore now n config
    · exact hs.close n
  call c h e h' hs := by
    rintro ⟨n, known, op, o, o', hn, hcall, ho, hanswer, ho', rfl⟩
    obtain ⟨db, o₁, hdb, hanswers, ho₁, hanswer₁, -⟩ := hs.run hn e.now op.work
    obtain ⟨db₂, o₂, hdb₂, -, ho₂, -, hstore, hvisit⟩ := hs.run hn e.now op
    obtain rfl := Option.some.inj (hdb.symm.trans hdb₂)
    obtain rfl := Option.some.inj (ho.symm.trans ho₁)
    obtain rfl := Option.some.inj (ho'.symm.trans ho₂)
    obtain ⟨c', hstep, hshows⟩ :=
      FileStore.run_step hanswers.regular.toWhole hanswers.shows .free e.now op
    have hpaired : (FileStore.run .free e.now db op).store.Paired := by
      have htables := FileStore.run_sameTables .free e.now db op
      rw [Database.Paired, htables.has, htables.has]
      exact hanswers.paired
    have hentry : e = ⟨e.now, op.work, (FileStore.run .free e.now db op.work).answer⟩ := by
      rw [← hanswer₁, hanswer, ← hcall]
    refine ⟨⟨c', ?_, hs.reached.step (.ran e.now n op _ ho'), hvisit, _, hstore, hpaired, hshows⟩,
      _, ⟨n, known, e.now, hn, rfl⟩, ?_⟩
    · rw [hentry]
      exact hstep
    · rw [hcall, ho, Option.map_some, hanswer]
  told c h ask hs := by
    rintro ⟨n, known, now, hn, rfl⟩
    obtain ⟨db, -, hdb, hanswers, -⟩ := hs.run hn now .verify
    have hask : (fun op => (h.run now n op).map Outcome.answer) =
        fun op => some (FileStore.run .free now db op).answer := by
      funext op
      obtain ⟨db', o, hdb', -, ho, hanswer, -⟩ := hs.run hn now op
      obtain rfl := Option.some.inj (hdb.symm.trans hdb')
      rw [ho, Option.map_some, hanswer]
    rw [hask]
    exact FileStore.census_tells hanswers Access.free_writes rfl now

/-- For every run from a store in memory that holds nothing, and for every run of
any number of stores on a fresh file, the journal of the calls accounts for all
entities and sessions: each is made and goes in turn, every answer is the one
that the journal calls for, and so was every answer when it was given. -/
theorem calls_accounted :
    (∀ log s, Logged MemoryStore.registry log s → Accounted MemoryStore.registry log s) ∧
      ∀ log h, Logged registry log h → Accounted registry log h :=
  ⟨fun _ _ hlogged => hlogged.accounted MemoryStore.registry_keeps,
    fun _ _ hlogged => hlogged.accounted registry_keeps⟩

/-- A journal in which a session goes with its owner's backing record, latest
first. -/
def oneLife : List Entry :=
  [⟨.epoch, .deleteBacking ⟨.bot, "a"⟩, .ok (.report ⟨⟨.bot, "a"⟩, true, true, [⟨"s"⟩]⟩)⟩,
    ⟨.epoch, .createSession { id := ⟨"s"⟩, target := ⟨.bot, "a"⟩ },
      .ok (.session ⟨⟨"s"⟩, ⟨.bot, "a"⟩, none, .epoch⟩)⟩,
    ⟨.epoch, .register ⟨.bot, "a"⟩, .ok (.entity ⟨.bot, "a"⟩)⟩,
    ⟨.epoch, .insertBacking ⟨.bot, "a"⟩, .ok .done⟩]

/-- Two stores on the shared file, just opened. -/
def twoStores : Host :=
  (((fresh "registry.db").openStore .epoch 1 (.atPath "registry.db")).1.openStore .epoch 2
    (.atPath "registry.db")).1

theorem logged_twoStores : Logged registry [] twoStores :=
  .idle (.idle (.start ⟨"registry.db", rfl⟩) (.inl ⟨_, _, _, rfl⟩)) (.inl ⟨_, _, _, rfl⟩)

theorem calls_accounted_oneLife :
    (∃ s, Logged MemoryStore.registry oneLife s ∧ Accounted MemoryStore.registry oneLife s) ∧
      ∃ h, Logged registry oneLife h ∧ Accounted registry oneLife h := by
  obtain ⟨hmemory, hfile⟩ := calls_accounted
  constructor
  · have hlogged : ∃ s, Logged MemoryStore.registry oneLife s :=
      ⟨_, .call (.call (.call (.call (.start rfl) ⟨.insertBacking ⟨.bot, "a"⟩, rfl, rfl, rfl⟩)
        ⟨.register ⟨.bot, "a"⟩, rfl, rfl, rfl⟩)
        ⟨.createSession { id := ⟨"s"⟩, target := ⟨.bot, "a"⟩ }, rfl, rfl, rfl⟩)
        ⟨.deleteBacking ⟨.bot, "a"⟩, rfl, rfl, rfl⟩⟩
    obtain ⟨s, hs⟩ := hlogged
    exact ⟨s, hs, hmemory _ s hs⟩
  · have hlogged : ∃ h, Logged registry oneLife h :=
      ⟨_, .call (.call (.call (.call logged_twoStores
        ⟨1, _, .insertBacking ⟨.bot, "a"⟩, _, _, rfl, rfl, rfl, rfl, rfl, rfl⟩)
        ⟨2, _, .register ⟨.bot, "a"⟩, _, _, rfl, rfl, rfl, rfl, rfl, rfl⟩)
        ⟨1, _, .createSession { id := ⟨"s"⟩, target := ⟨.bot, "a"⟩ }, _, _, rfl, rfl, rfl, rfl,
          rfl, rfl⟩)
        ⟨2, _, .deleteBacking ⟨.bot, "a"⟩, _, _, rfl, rfl, rfl, rfl, rfl, rfl⟩⟩
    obtain ⟨h, hh⟩ := hlogged
    exact ⟨h, hh, hfile _ h hh⟩

end OwnershipRegistry.Host
