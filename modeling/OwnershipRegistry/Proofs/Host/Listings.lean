import OwnershipRegistry.Proofs.File.Written
import OwnershipRegistry.Proofs.Host.Shared
import OwnershipRegistry.Proofs.Memory.Listings

/-!
Listings of open stores. While stores alone write, at instants of the era, all that any
store stands on can be read: every listing is given, is in order and has just what is read
one by one.
-/

namespace OwnershipRegistry.Host

/-- What stores alone make of a fresh host, at instants of the era. -/
inductive Tended : Host → Prop
  | fresh (path : String) : Tended (.fresh path)
  | opened {h : Host} (now : Instant) (n : Nat) (c : StoreConfig) (tended : Tended h) :
      Tended (h.openStore now n c).1
  | openedMemory {h : Host} (n : Nat) (tended : Tended h) : Tended (h.openMemory n)
  | closed {h : Host} (n : Nat) (tended : Tended h) : Tended (h.close n).1
  | ran {h : Host} {now : Instant} {n : Nat} {op : Operation} {o : Outcome Host Answer}
      (tended : Tended h) (clock : now.InEra) (running : h.run now n op = some o) :
      Tended o.store

variable {h h' : Host} {now : Instant} {n : Nat}

theorem Tended.reached (ht : Tended h) : Reached true h := by
  induction ht with
  | fresh path => exact .fresh path
  | opened now n c _ ih => exact ih.step (.opened now n c)
  | openedMemory n _ ih => exact ih.step (.openedMemory n)
  | closed n _ ih => exact ih.step (.closed n)
  | ran _ _ running ih => exact ih.step (.ran _ _ _ _ running)

theorem Tended.runAll (ht : Tended h) (n : Nat) {history : List (Instant × Operation)}
    (hclock : ∀ step ∈ history, step.1.InEra) : Tended (h.runAll n history) := by
  induction history generalizing h with
  | nil => exact ht
  | cons step history ih =>
      have hfirst : Tended (((h.run step.1 n step.2).map Outcome.store).getD h) := by
        cases hrun : h.run step.1 n step.2 with
        | none => exact ht
        | some o => exact .ran ht (hclock step List.mem_cons_self) hrun
      exact ih hfirst fun step hstep => hclock step (List.mem_cons_of_mem _ hstep)

/-- Nobody but stores uses the file, and all rows are such as stores write. -/
structure Written (h : Host) : Prop where
  alone : h.file.visit = none
  file : ∃ db, h.file.database = some db ∧ db.Written
  commons : ∀ name db, h.commons.lookup name = some db → db.Written
  handles : ∀ n db, (n, Handle.sealed db) ∈ h.handles → db.Written

theorem fresh_written (path : String) : (fresh path).Written where
  alone := rfl
  file := ⟨.empty, rfl, Database.empty_written⟩
  commons name db hdb := by cases hdb
  handles n db hn := by cases hn

theorem Written.setHandle (hw : h.Written) (n : Nat) {store : Handle}
    (hstore : ∀ db, store = .sealed db → db.Written) : (h.setHandle n store).Written where
  alone := hw.alone
  file := hw.file
  commons := hw.commons
  handles m db hm := by
    rcases mem_handles_setHandle.mp hm with ⟨-, heq⟩ | ⟨hm, -⟩
    · exact hstore db heq.symm
    · exact hw.handles m db hm

theorem Written.getD_commons (hw : h.Written) (name : CommonName) :
    ((h.commons.lookup name).getD .empty).Written := by
  cases hlookup : h.commons.lookup name with
  | none => exact Database.empty_written
  | some db => exact hw.commons name db hlookup

theorem Written.setCommon (hw : h.Written) (name : CommonName) {db : Database}
    (hdb : db.Written) : (h.setCommon name db).Written where
  alone := hw.alone
  file := hw.file
  commons name' db' hdb' := by
    rw [lookup_setCommon] at hdb'
    split_ifs at hdb' with hname
    · rwa [← Option.some.inj hdb']
    · exact hw.commons name' db' hdb'
  handles := hw.handles

theorem Written.setFile (hw : h.Written) {f : SharedFile} (halone : f.visit = none)
    (hf : ∃ db, f.database = some db ∧ db.Written) : ({ h with file := f } : Host).Written where
  alone := halone
  file := hf
  commons := hw.commons
  handles := hw.handles

theorem Written.close (hw : h.Written) (n : Nat) : (h.close n).1.Written where
  alone := hw.alone
  file := hw.file
  commons name db hdb := by
    rw [lookup_close] at hdb
    split_ifs at hdb
    exact hw.commons name db hdb
  handles m db hm := hw.handles m db (List.mem_filter.mp hm).1

/-! ### Opening -/

theorem Written.openSealed (hw : h.Written) (now : Instant) (n : Nat) (c : StoreConfig)
    (journal : Option String) (changes : Bool) :
    (openAt.ofSealed h now n c journal changes).store.Written := by
  have hmade := Database.empty_written.kept
    (Database.kept_openStore { changes := changes } now c journal .empty)
  unfold openAt.ofSealed
  simp only
  split
  · refine hw.setHandle n fun db hdb => ?_
    rwa [← Handle.sealed.inj hdb]
  · exact hw

theorem Written.openAt (hw : h.Written) (now : Instant) (n : Nat) (c : StoreConfig)
    (place : Option Place) : (h.openAt now n c place).store.Written := by
  match place with
  | none => exact hw.openSealed now n c none true
  | some (.sealed journal changes) => exact hw.openSealed now n c (some journal) changes
  | some (.common name changes) =>
      simp only [Host.openAt]
      split
      · refine (hw.setCommon name ?_).setHandle n fun db hdb => by cases hdb
        exact (hw.getD_commons name).kept (Database.kept_openStore _ now c _ _)
      · exact hw
  | some .shared =>
      obtain ⟨db, hdb, hwritten⟩ := hw.file
      obtain ⟨-, halone, -⟩ := SharedFile.openStore_alone hdb hw.alone now c
      obtain ⟨db', hdb', hkept⟩ := h.file.kept_openStore now c hdb
      have hfile : ({ h with file := (h.file.openStore now c).store } : Host).Written :=
        hw.setFile halone ⟨db', hdb', hwritten.kept hkept⟩
      simp only [Host.openAt]
      split
      · exact hfile.setHandle n fun db hdb => by cases hdb
      · exact hfile

theorem Written.openStore (hw : h.Written) (now : Instant) (n : Nat) (c : StoreConfig) :
    (h.openStore now n c).1.Written := by
  unfold Host.openStore
  simp only
  split
  · exact hw.close n
  · split_ifs
    · exact hw.close n
    · exact (hw.close n).openAt now n c _

/-! ### Operations -/

theorem Written.run (hw : h.Written) (hnow : now.InEra) {op : Operation}
    {o : Outcome Host Answer} (ho : h.run now n op = some o) : o.store.Written := by
  obtain ⟨handle, hn, rfl⟩ := Option.map_eq_some_iff.mp ho
  cases handle with
  | memory s => exact hw.setHandle n nofun
  | sealed db =>
      refine hw.setHandle n fun db' hdb' => ?_
      rw [← Handle.sealed.inj hdb']
      exact FileStore.written_run (hw.handles n db (mem_of_handle? hn)) hnow _ _
  | common name a =>
      exact hw.setCommon name (FileStore.written_run (hw.getD_commons name) hnow _ _)
  | shared known =>
      obtain ⟨db, hdb, hwritten⟩ := hw.file
      simp only [hdb, Option.getD_some]
      refine (hw.setFile ?_ ⟨_, SharedFile.database_put _ _, ?_⟩).setHandle n nofun
      · exact (SharedFile.visit_put _ _).trans hw.alone
      · exact FileStore.written_runKnowing hwritten hnow _ _ _

theorem Tended.written (ht : Tended h) : h.Written := by
  induction ht with
  | fresh path => exact fresh_written path
  | opened now n c _ ih => exact ih.openStore now n c
  | openedMemory n _ ih => exact (ih.close n).setHandle n nofun
  | closed n _ ih => exact ih.close n
  | ran _ clock running ih => exact ih.run clock running

/-! ### Listings -/

theorem Written.tables (hw : h.Written) {handle : Handle} (hn : h.handle? n = some handle)
    {db : Database} (hdb : h.tables? handle = some db) : db.Written := by
  cases handle with
  | memory s => cases hdb
  | sealed own =>
      obtain rfl := Option.some.inj hdb
      exact hw.handles n own (mem_of_handle? hn)
  | common name a => exact hw.commons name db hdb
  | shared known =>
      obtain ⟨db', hdb', hwritten⟩ := hw.file
      rwa [← Option.some.inj (hdb'.symm.trans hdb)]

/-- Nobody keeps a store from reading. -/
theorem Written.reads (hw : h.Written) {checked : Bool} {handle : Handle}
    (hfit : Fit checked h handle) : (h.accessOf handle).reads = true := by
  cases handle with
  | memory s => rfl
  | sealed db => rfl
  | common name a => exact hfit.1
  | shared known =>
      rw [accessOf, SharedFile.access_of_alone hw.alone]
      rfl

/-- What is asked of the store of a number at an instant. -/
def asked (h : Host) (n : Nat) (now : Instant) : Asking :=
  fun op => (h.run now n op).map Outcome.answer

/-- Every listing is given, whatever store is asked. -/
theorem Tended.listingsGiven (ht : Tended h) {handle : Handle} (hn : h.handle? n = some handle)
    (now : Instant) : ListingsGiven (h.asked n now) := by
  have hregular := ht.reached.regular
  have hfit := hregular.fit hn
  rcases hfit.memory_or_tables with ⟨s, rfl, hsound⟩ | ⟨db, hdb⟩
  · have hasked : h.asked n now = fun op => some (s.run now op).answer := by
      funext op
      obtain ⟨o, ho, hanswer, -⟩ := run_memory hn now op
      rw [asked, ho, Option.map_some, hanswer]
    rw [hasked]
    exact (MemoryStore.filed_iff.mp hsound.filed).listings now
  · have hreads := ht.written.reads hfit
    have hasked : h.asked n now =
        fun op => some (FileStore.run (h.accessOf handle) now db op).answer := by
      funext op
      obtain ⟨o, ho, hanswer, -⟩ := hregular.run_tables hn hdb hreads now op
      rw [asked, ho, Option.map_some, hanswer]
    obtain ⟨-, he, hs⟩ := hregular.tables_regular hfit hdb
    rw [hasked]
    exact FileStore.listingsGiven (ht.written.tables hn hdb) hreads he hs now

/-- Listings and what is read one by one agree. In memory every operation leaves the index
right, so that it is right after every history, and where it is right every listing is given
and has just what is read one by one. On tables no listing that is given differs from what
is read one by one, whatever the rows are and whatever the store remembers. And whatever
stores alone have made of a host, each of its stores gives every listing. -/
theorem listings_read_back :
    (∀ t t' : Target, compare t t' = .lt ↔ t.Before t') ∧
    (∀ (s : MemoryStore) (now : Instant) (op : Operation), s.IndexAgrees →
      (s.run now op).store.IndexAgrees) ∧
    (∀ history, (MemoryStore.empty.after history).IndexAgrees) ∧
    (∀ (s : MemoryStore) (now : Instant), s.IndexAgrees →
      ListingsGiven fun op => some (s.run now op).answer) ∧
    (∀ (c : FileStore.Caller) (db : Database),
      ListingsAgree fun op => some (c.run db op).answer) ∧
    ∀ h, Tended h → ∀ n handle now, h.handle? n = some handle → ListingsGiven (h.asked n now) :=
  ⟨fun _ _ => Target.compare_eq_lt_iff, fun _ now op hs => hs.run now op,
    MemoryStore.empty_indexAgrees.after, fun _ now hs => hs.listings now,
    fun c db => c.listingsAgree db, fun _ ht _ _ now hn => ht.listingsGiven hn now⟩

/-- A bot with two sessions and a user, added in the reverse of their order. -/
def reversed : List (Instant × Operation) :=
  [(.epoch, .insertBacking ⟨.user, "a"⟩), (.epoch, .register ⟨.user, "a"⟩),
    (.epoch, .insertBacking ⟨.bot, "b"⟩), (.epoch, .register ⟨.bot, "b"⟩),
    (.epoch, .createSession { id := ⟨"t"⟩, target := ⟨.bot, "b"⟩ }),
    (.epoch, .createSession { id := ⟨"s"⟩, target := ⟨.bot, "b"⟩ })]

/-- A store on the shared file with what was added. -/
def stocked : Host :=
  ((fresh "registry.db").openStore .epoch 1 (.atPath "registry.db")).1.runAll 1 reversed

theorem listings_read_back_reversed :
    (MemoryStore.empty.after reversed).IndexAgrees ∧
    ListingsGiven (fun op => some ((MemoryStore.empty.after reversed).run .epoch op).answer) ∧
    ListingsGiven (stocked.asked 1 .epoch) ∧
    stocked.asked 1 .epoch (.listSessions ⟨.bot, "b"⟩) = some (.ok (.sessions
      [⟨⟨"s"⟩, ⟨.bot, "b"⟩, none, .epoch⟩, ⟨⟨"t"⟩, ⟨.bot, "b"⟩, none, .epoch⟩])) ∧
    stocked.asked 1 .epoch .listEntities =
      some (.ok (.entities [⟨.bot, "b"⟩, ⟨.user, "a"⟩])) := by
  obtain ⟨-, -, hindex, hmemory, -, hhost⟩ := listings_read_back
  have hclock : ∀ step ∈ reversed, step.1.InEra := by decide +kernel
  have htended : Tended stocked := ((Tended.fresh "registry.db").opened _ 1 _).runAll 1 hclock
  refine ⟨hindex reversed, hmemory _ .epoch (hindex reversed), ?_, rfl, rfl⟩
  exact hhost stocked htended 1 _ .epoch rfl

end OwnershipRegistry.Host
