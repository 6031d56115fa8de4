import OwnershipRegistry.Proofs.File.Agreement
import OwnershipRegistry.Proofs.File.Opening
import OwnershipRegistry.Proofs.Host.Reached

/-!
Agreement of a store in memory with one that has been opened on a fresh host,
wherever its tables are. They begin alike and every operation keeps them alike,
so that all histories of operations give the same rows and the same answers, up
to the one call that they refuse on different grounds.
-/

namespace OwnershipRegistry

/-! ### Opening -/

theorem Database.openStore_empty (now : Instant) {c : StoreConfig}
    (hc : c.provisionBacking = true) (journal : Option String) :
    ∃ l, (Database.empty.openStore .free now c journal).store = MemoryStore.empty.onFile l := by
  obtain ⟨path, timeout, provision, ahead⟩ := c
  obtain rfl : provision = true := hc
  exact ⟨_, rfl⟩

theorem Database.answer_openStore_empty (now : Instant) {c : StoreConfig}
    (hc : c.provisionBacking = true) (journal : Option String) :
    (Database.empty.openStore .free now c journal).answer = .ok Migration.all := by
  obtain ⟨path, timeout, provision, ahead⟩ := c
  obtain rfl : provision = true := hc
  rfl

theorem Database.openStore_empty_readOnly (now : Instant) {c : StoreConfig}
    (hc : c.provisionBacking = true) (journal : Option String) :
    (Database.empty.openStore { changes := false } now c journal).answer =
      .error (.ofFault .readOnly) := by
  obtain ⟨path, timeout, provision, ahead⟩ := c
  obtain rfl : provision = true := hc
  rfl

namespace Host

/-- The store under a number is on tables that hold what a store in memory holds,
and nothing keeps it from using them. -/
structure Holds (h : Host) (n : Nat) (s : MemoryStore) (l : Option Ledger) : Prop where
  regular : h.Regular true
  standing : ∃ handle, h.handle? n = some handle ∧ h.tables? handle = some (s.onFile l) ∧
    (h.accessOf handle).Writes ∧ (h.accessOf handle).reads = true

variable {h : Host} {n : Nat} {s : MemoryStore} {l : Option Ledger}

theorem Holds.tablesOf?_eq (hh : h.Holds n s l) : h.tablesOf? n = some (s.onFile l) := by
  obtain ⟨handle, hn, hdb, -⟩ := hh.standing
  rw [tablesOf?, hn, Option.bind_some, hdb]

theorem openSealed_holds (path : String) (now : Instant) (n : Nat) {c : StoreConfig}
    (hc : c.provisionBacking = true) (journal : Option String) (changes : Bool)
    (hok : (openAt.ofSealed (fresh path) now n c journal changes).answer = .ok ()) :
    ∃ l, (openAt.ofSealed (fresh path) now n c journal changes).store.Holds n .empty l := by
  have hfresh : (fresh path).Regular true := fresh_regular path
  have hregular := hfresh.openSealed now n c journal changes
  cases changes with
  | false =>
      have hfails := Database.openStore_empty_readOnly now hc journal
      rw [openAt.ofSealed, hfails] at hok
      cases hok
  | true =>
      obtain ⟨l, hl⟩ := Database.openStore_empty now hc journal
      obtain ⟨ms, hms, -⟩ := Except.map_eq_ok.mp hok
      have hopened : (openAt.ofSealed (fresh path) now n c journal true).store =
          (fresh path).setHandle n (.sealed (MemoryStore.empty.onFile l)) := by
        rw [← hl, openAt.ofSealed]
        simp only [hms]
        rfl
      rw [hopened] at hregular ⊢
      exact ⟨l, hregular, _, handle?_setHandle _ _ _, rfl, Access.free_writes, rfl⟩

theorem openCommon_holds (path : String) (now : Instant) (n : Nat) {c : StoreConfig}
    (hc : c.provisionBacking = true) (name : CommonName) (changes : Bool)
    (hok : ((fresh path).openAt now n c (some (.common name changes))).answer = .ok ()) :
    ∃ l, ((fresh path).openAt now n c (some (.common name changes))).store.Holds n .empty l := by
  have hfresh : (fresh path).Regular true := fresh_regular path
  have hregular := hfresh.openCommon now n c name changes
  have haccess : (fresh path).commonAccess name changes = { changes := changes } := by
    simp [commonAccess, fresh]
  have hlookup : (fresh path).commons.lookup name = none := rfl
  simp only [openAt, haccess, hlookup, Option.getD_none] at hok hregular ⊢
  cases changes with
  | false =>
      rw [Database.openStore_empty_readOnly now hc (some memoryJournal)] at hok
      cases hok
  | true =>
      obtain ⟨l, hl⟩ := Database.openStore_empty now hc (some memoryJournal)
      obtain ⟨ms, hms, -⟩ := Except.map_eq_ok.mp hok
      have hisOk : (Database.empty.openStore { changes := true } now c
          (some memoryJournal)).answer.isOk = true := by
        rw [hms]
        rfl
      rw [if_pos hisOk] at hregular ⊢
      refine ⟨l, hregular, _, handle?_setHandle _ _ _, ?_, Access.free_writes, rfl⟩
      show ((fresh path).setCommon name _).commons.lookup name = _
      rw [lookup_setCommon, if_pos rfl]
      exact congrArg some hl

theorem openShared_holds (path : String) (now : Instant) (n : Nat) {c : StoreConfig}
    (hc : c.provisionBacking = true) :
    ((fresh path).openAt now n c (some .shared)).answer = .ok () ∧
      ∃ l, ((fresh path).openAt now n c (some .shared)).store.Holds n .empty l := by
  have hfresh : (fresh path).Regular true := fresh_regular path
  have hregular := hfresh.openShared now n c
  obtain ⟨hstore, hvisit, hanswer⟩ :=
    SharedFile.openStore_alone (f := (fresh path).file) rfl rfl now c
  obtain ⟨l, hl⟩ := Database.openStore_empty now hc none
  have hok : ((fresh path).file.openStore now c).answer = .ok Migration.all :=
    hanswer.trans (Database.answer_openStore_empty now hc none)
  have hfile : ((fresh path).file.openStore now c).store.database =
      some (MemoryStore.empty.onFile l) := hstore.trans (congrArg some hl)
  have haccess := SharedFile.access_of_alone hvisit
  simp only [openAt, hok, Except.isOk, Except.toBool, if_true] at hregular ⊢
  refine ⟨rfl, l, hregular, _, handle?_setHandle _ _ _, hfile, ?_, ?_⟩
  · show ((fresh path).file.openStore now c).store.access.Writes
    rw [haccess]
    exact Access.free_writes
  · show ((fresh path).file.openStore now c).store.access.reads = true
    rw [haccess]
    rfl

theorem openAt_holds (path : String) (now : Instant) (n : Nat) {c : StoreConfig}
    (hprovision : c.provisionBacking = true) (place : Option Place)
    (hok : ((fresh path).openAt now n c place).answer = .ok ()) :
    ∃ l, ((fresh path).openAt now n c place).store.Holds n .empty l := by
  match place with
  | none => exact openSealed_holds path now n hprovision none true hok
  | some (.sealed journal changes) =>
      exact openSealed_holds path now n hprovision (some journal) changes hok
  | some (.common name changes) => exact openCommon_holds path now n hprovision name changes hok
  | some .shared => exact (openShared_holds path now n hprovision).2

/-- Where the place is found and the time to wait can be waited, opening a store
is opening it at the place. -/
theorem openStore_eq {path : String} {c : StoreConfig} {place : Option Place}
    (htimeout : ¬longestTimeoutMs < c.busyTimeoutMs)
    (hplace : c.path.mapM (Place.ofPath path) = .ok place) (now : Instant) (n : Nat) :
    (fresh path).openStore now n c =
      (((fresh path).openAt now n c place).store,
        ((fresh path).openAt now n c place).answer.mapError .refused,
        ((fresh path).openAt now n c place).events) := by
  have hclosed : ((fresh path).close n).1 = fresh path := rfl
  have hplace : c.path.mapM (Place.ofPath (fresh path).file.path) = .ok place := hplace
  simp only [openStore, hclosed, hplace, htimeout, if_false]

/-- A store that could be opened on a fresh host was opened at some place. -/
theorem openAt_of_openStore {path : String} {now : Instant} {c : StoreConfig}
    (hok : ((fresh path).openStore now n c).2.1 = .ok ()) :
    ∃ place, ((fresh path).openAt now n c place).answer = .ok () ∧
      (fresh path).openStore now n c =
        (((fresh path).openAt now n c place).store, .ok (),
          ((fresh path).openAt now n c place).events) := by
  have hclosed : ((fresh path).close n).1 = fresh path := rfl
  cases hplace : c.path.mapM (Place.ofPath path) with
  | error fault =>
      have hplace : c.path.mapM (Place.ofPath (fresh path).file.path) = .error fault := hplace
      simp only [openStore, hclosed, hplace] at hok
      cases hok
  | ok place =>
      by_cases htimeout : longestTimeoutMs < c.busyTimeoutMs
      · have hplace : c.path.mapM (Place.ofPath (fresh path).file.path) = .ok place := hplace
        simp only [openStore, hclosed, hplace, htimeout, if_true] at hok
        cases hok
      · rw [openStore_eq htimeout hplace] at hok ⊢
        rw [Except.mapError_eq_ok.mp hok]
        exact ⟨place, Except.mapError_eq_ok.mp hok, rfl⟩

/-- A store that has been opened on a fresh host with tables of backing records
holds nothing. -/
theorem openStore_holds {path : String} {now : Instant} {c : StoreConfig}
    (hprovision : c.provisionBacking = true)
    (hok : ((fresh path).openStore now n c).2.1 = .ok ()) :
    ∃ l, ((fresh path).openStore now n c).1.Holds n .empty l := by
  obtain ⟨place, hopened, heq⟩ := openAt_of_openStore hok
  rw [heq]
  exact openAt_holds path now n hprovision place hopened

/-- A private place in memory can always be opened, and so can the shared file if
its path can be one. -/
theorem openStore_ok (path : String) (now : Instant) (n : Nat) :
    ((fresh path).openStore now n .inMemory).2.1 = .ok () ∧
      (0 ∉ octets path → ((fresh path).openStore now n (.atPath path)).2.1 = .ok ()) := by
  refine ⟨rfl, fun hpath => ?_⟩
  have hzero : (octets path).findIdx? (· == 0) = none := by
    rw [List.findIdx?_eq_none_iff]
    intro o ho
    exact beq_eq_false_iff_ne.mpr fun heq => hpath (heq ▸ ho)
  obtain ⟨place, hplace, hok⟩ : ∃ place, Place.ofPath path path = .ok place ∧
      ((fresh path).openAt now n (.atPath path) (some place)).answer = .ok () := by
    rw [Place.ofPath, hzero]
    simp only [if_true]
    split_ifs
    · exact ⟨_, rfl, rfl⟩
    · exact ⟨_, rfl, rfl⟩
    · exact ⟨_, rfl, (openShared_holds path now n rfl).1⟩
  have hfound : (some path).mapM (Place.ofPath path) = .ok (some place) := by
    rw [Option.mapM_some, hplace]
    rfl
  have htimeout : ¬longestTimeoutMs < 5000 := by decide
  rw [openStore_eq htimeout hfound]
  exact Except.mapError_eq_ok.mpr hok

/-! ### Running -/

/-- An operation leaves the locks as they were. -/
theorem accessOf_run {handle handle' : Handle} {now : Instant} {op : Operation}
    {o : Outcome Host Answer} (hn : h.handle? n = some handle) (ho : h.run now n op = some o)
    (hn' : o.store.handle? n = some handle') : o.store.accessOf handle' = h.accessOf handle := by
  rw [Host.run, hn, Option.map_some, Option.some.injEq] at ho
  subst ho
  cases handle with
  | memory s =>
      obtain rfl := Option.some.inj ((handle?_setHandle _ _ _).symm.trans hn')
      rfl
  | sealed db =>
      obtain rfl := Option.some.inj ((handle?_setHandle _ _ _).symm.trans hn')
      rfl
  | common name a =>
      obtain rfl := Option.some.inj (hn.symm.trans hn')
      rfl
  | shared known =>
      obtain rfl := Option.some.inj ((handle?_setHandle _ _ _).symm.trans hn')
      exact SharedFile.access_put _ _

/-- What an operation does to a store on tables is what it does to the tables. -/
theorem Holds.run_tables (hh : h.Holds n s l) {s' : MemoryStore} (now : Instant) (op : Operation)
    (hstore : ∀ a : Access, a.Writes → a.reads = true →
      (FileStore.run a now (s.onFile l) op).store = s'.onFile l) :
    ∃ o a, h.run now n op = some o ∧ a.Writes ∧ a.reads = true ∧
      o.answer = (FileStore.run a now (s.onFile l) op).answer ∧ o.store.Holds n s' l := by
  obtain ⟨handle, hn, hdb, ha, hr⟩ := hh.standing
  obtain ⟨o, ho, hanswer, htables⟩ := hh.regular.run_tables hn hdb hr now op
  obtain ⟨handle', hn', hdb'⟩ := Option.bind_eq_some_iff.mp htables
  have haccess : o.store.accessOf handle' = h.accessOf handle := accessOf_run hn ho hn'
  refine ⟨o, _, ho, ha, hr, hanswer, hh.regular.run ho, handle', hn', ?_, ?_⟩
  · rw [hdb', hstore _ ha hr]
  · rw [haccess]
    exact ⟨ha, hr⟩

/-- What a call on a store on tables comes to, beside the same call in memory. The
tables hold what memory holds then; the answer is the same, unless a new session
is refused on two grounds. Then memory names the owner that is not registered and
the tables name the identifier that is taken, and neither changes. -/
structure Agrees (h : Host) (n : Nat) (s : MemoryStore) (l : Option Ledger) (now : Instant)
    (op : Operation) (o : Outcome Host Answer) : Prop where
  ran : h.run now n op = some o
  tables : o.store.tablesOf? n = some ((s.run now op).store.onFile l)
  same : ¬s.IsDoublyRefused op → o.answer = (s.run now op).answer
  refused : ∀ new, op = .createSession new → s.IsDoublyRefused op →
    o.answer = .error (.duplicateSession new.id) ∧ o.store.tablesOf? n = h.tablesOf? n ∧
      (s.run now op).answer = .error (.unknownEntity new.target) ∧ (s.run now op).store = s

theorem Holds.agrees (hh : h.Holds n s l) (hs : s.Sound) (hd : s.Dated) (now : Instant)
    (op : Operation) :
    ∃ o, h.Agrees n s l now op o ∧ o.store.Holds n (s.run now op).store l := by
  -- only a new session can be refused on two grounds
  by_cases hboth : s.IsDoublyRefused op
  · cases op with
    | createSession new =>
        obtain ⟨o, a, ho, ha, -, hanswer, hholds⟩ := hh.run_tables now (.createSession new)
          fun a ha _ => congrArg Outcome.store (MemoryStore.run_of_isDoublyRefused ha now hboth).2
        obtain ⟨hmemory, hfile⟩ := MemoryStore.run_of_isDoublyRefused (l := l) ha now hboth
        have hafter : o.store.Holds n (s.run now (.createSession new)).store l := by
          rw [hmemory]
          exact hholds
        refine ⟨o, ⟨ho, hafter.tablesOf?_eq, fun hone => absurd hboth hone, ?_⟩, hafter⟩
        intro new' hnew _
        cases hnew
        rw [hanswer, hfile, hmemory, hholds.tablesOf?_eq, hh.tablesOf?_eq]
        exact ⟨rfl, rfl, rfl, rfl⟩
    | _ => cases hboth
  · obtain ⟨o, a, ho, ha, hr, hanswer, hholds⟩ := hh.run_tables now op
      fun a ha hr => (hs.run_mirrors hd ha hr now hboth).store
    have hsame := (hs.run_mirrors (l := l) hd ha hr now hboth).answer
    refine ⟨o, ⟨ho, hholds.tablesOf?_eq, fun _ => hanswer.trans hsame, ?_⟩, hholds⟩
    intro _ _ hyes
    exact absurd hyes hboth

theorem Holds.runAll (hh : h.Holds n s l) (hs : s.Sound) (hd : s.Dated)
    {history : List (Instant × Operation)} (hera : ∀ step ∈ history, step.1.InEra) :
    (h.runAll n history).Holds n (s.after history) l := by
  -- by induction on the history; the host and the store in memory go on together
  induction history generalizing h s with
  | nil => exact hh
  | cons step history ih =>
      obtain ⟨o, ho, hholds⟩ := hh.agrees hs hd step.1 step.2
      have hfirst : step.1.InEra := hera step List.mem_cons_self
      have hrest := ih hholds (hs.run step.1 step.2) (hd.run hfirst step.2)
        fun step' hstep => hera step' (List.mem_cons_of_mem step hstep)
      rw [Host.runAll, List.foldl_cons, ho.ran]
      exact hrest

/-- A store in memory and one that has been opened on a fresh host with all
settings but its place left alone, wherever that is: after every history of
operations at instants of the era the tables hold what memory holds, and the two
agree on every call that may come next. -/
theorem stores_agree {path : String} {opened : Instant} {c : StoreConfig}
    (hdefault : c = { path := c.path })
    (hopened : ((fresh path).openStore opened n c).2.1 = .ok ())
    {history : List (Instant × Operation)} (hera : ∀ step ∈ history, step.1.InEra) :
    ∃ l, (((fresh path).openStore opened n c).1.runAll n history).tablesOf? n =
        some ((MemoryStore.empty.after history).onFile l) ∧
      ∀ now op, ∃ o, (((fresh path).openStore opened n c).1.runAll n history).Agrees n
        (MemoryStore.empty.after history) l now op o := by
  have hprovision : c.provisionBacking = true := by rw [hdefault]
  obtain ⟨l, hl⟩ := openStore_holds hprovision hopened
  have hsound : MemoryStore.empty.Sound := MemoryStore.empty_sound
  have hdated : MemoryStore.empty.Dated := by
    intro x hx
    cases hx
  have hholds := hl.runAll hsound hdated hera
  refine ⟨l, hholds.tablesOf?_eq, fun now op => ?_⟩
  obtain ⟨o, ho, -⟩ := hholds.agrees (hsound.after history) (hdated.after hera) now op
  exact ⟨o, ho⟩

/-- A history after which an identifier is taken. -/
def sameIdentifier : List (Instant × Operation) :=
  [(.epoch, .insertBacking ⟨.bot, "a"⟩), (.epoch, .register ⟨.bot, "a"⟩),
    (.epoch, .createSession { id := ⟨"s"⟩, target := ⟨.bot, "a"⟩ })]

theorem stores_agree_sameIdentifier :
    ∃ l o, (((fresh "registry.db").openStore .epoch 1 (.atPath "registry.db")).1.runAll 1
        sameIdentifier).tablesOf? 1 = some ((MemoryStore.empty.after sameIdentifier).onFile l) ∧
      (((fresh "registry.db").openStore .epoch 1 (.atPath "registry.db")).1.runAll 1
        sameIdentifier).run .epoch 1 (.createSession { id := ⟨"s"⟩, target := ⟨.user, "b"⟩ }) =
          some o ∧ o.answer = .error (.duplicateSession ⟨"s"⟩) := by
  have hera : ∀ step ∈ sameIdentifier, step.1.InEra := by decide +kernel
  have hopened : ((fresh "registry.db").openStore .epoch 1 (.atPath "registry.db")).2.1 = .ok () :=
    (openStore_ok "registry.db" .epoch 1).2 (by decide +kernel)
  obtain ⟨l, htables, hnext⟩ := stores_agree rfl hopened hera
  obtain ⟨o, ho⟩ := hnext .epoch (.createSession { id := ⟨"s"⟩, target := ⟨.user, "b"⟩ })
  have hrefused : (MemoryStore.empty.after sameIdentifier).IsDoublyRefused
      (.createSession { id := ⟨"s"⟩, target := ⟨.user, "b"⟩ }) :=
    ⟨by decide +kernel, by decide +kernel⟩
  exact ⟨l, o, htables, ho.ran, (ho.refused _ rfl hrefused).1⟩

end Host

end OwnershipRegistry
