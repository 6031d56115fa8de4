import OwnershipRegistry.File.Host
import OwnershipRegistry.Proofs.File.Recall
import OwnershipRegistry.Proofs.File.Shared
import OwnershipRegistry.Proofs.Memory.Sound

/-!
Hosts that come about from a fresh one. Stores are opened and closed and run
operations in any order, and the visitor changes rows of the shared file while
references hold. All tables that come about so are regular, and every open store
finds the tables that its opening made.
-/

namespace OwnershipRegistry.Host

/-- Nothing is open, and the shared file is without tables. -/
def fresh (path : String) : Host := { file := { path := path, database := some .empty } }

/-- What may happen next. The visitor keeps references, and the list of kinds as
well if kinds are `checked`. -/
inductive Step (checked : Bool) (h : Host) : Host → Prop
  | opened (now : Instant) (n : Nat) (c : StoreConfig) : Step checked h (h.openStore now n c).1
  | openedMemory (n : Nat) : Step checked h (h.openMemory n)
  | closed (n : Nat) : Step checked h (h.close n).1
  | ran (now : Instant) (n : Nat) (op : Operation) (o : Outcome Host Answer)
      (running : h.run now n op = some o) : Step checked h o.store
  | visitBegun (hold : Hold) : Step checked h { h with file := (h.file.beginVisit hold).1 }
  | visitEnded : Step checked h { h with file := h.file.endVisit.1 }
  | rowsChanged (rules : Rules) (c : ForeignChange) (references : rules.references = true)
      (kinds : checked = true → rules.kinds = true) (rows : c.isStructural = false) :
      Step checked h { h with file := (h.file.change rules c).1 }

/-- What comes about from a fresh host. -/
inductive Reached (checked : Bool) : Host → Prop
  | fresh (path : String) : Reached checked (.fresh path)
  | step {h h' : Host} : Reached checked h → Step checked h h' → Reached checked h'

/-- The tables of entities and sessions are there. -/
def Furnished (db : Database) : Prop := db.has .entities = true ∧ db.has .sessions = true

/-- An open store is sound in memory, and elsewhere finds its tables. -/
def Fit (checked : Bool) (h : Host) : Handle → Prop
  | .memory s => s.Sound
  | .sealed db => db.Regular checked ∧ Furnished db
  | .common name a => a.reads = true ∧ ∃ db, h.commons.lookup name = some db ∧ Furnished db
  | .shared known =>
    known.Plain ∧ ∃ db, h.file.database = some db ∧ Furnished db

/-- All tables are regular and all open stores find theirs. -/
structure Regular (checked : Bool) (h : Host) : Prop where
  file : ∃ db, h.file.database = some db ∧ db.Regular checked
  commons : ∀ name db, h.commons.lookup name = some db → db.Regular checked
  handles : ∀ n handle, (n, handle) ∈ h.handles → Fit checked h handle

variable {h h' : Host} {checked : Bool}

theorem fresh_regular (path : String) : (fresh path).Regular checked where
  file := ⟨.empty, rfl, Database.empty_regular⟩
  commons name db hdb := by cases hdb
  handles n handle hn := by cases hn

/-! ### What is open -/

theorem lookup_filter {κ α : Type} [BEq κ] [LawfulBEq κ] (q : κ → Bool) (l : List (κ × α)) (k : κ) :
    (l.filter fun p => q p.1).lookup k = if q k then l.lookup k else none := by
  induction l with
  | nil => simp
  | cons p l ih =>
      obtain ⟨k', a⟩ := p
      rw [List.filter_cons, List.lookup_cons]
      by_cases hk : k = k'
      · subst hk
        cases hq : q k <;> simp [ih, hq]
      · have hne : (k == k') = false := beq_eq_false_iff_ne.mpr hk
        cases hq : q k' <;> simp [ih, hne, List.lookup_cons]

theorem mem_of_handle? {n : Nat} {handle : Handle} (hn : h.handle? n = some handle) :
    (n, handle) ∈ h.handles := by
  obtain ⟨before, rest, heq, -⟩ := List.lookup_eq_some_iff.mp hn
  rw [heq]
  simp

theorem mem_handles_setHandle {n m : Nat} {store handle : Handle} :
    (m, handle) ∈ (h.setHandle n store).handles ↔
      (m = n ∧ handle = store) ∨ ((m, handle) ∈ h.handles ∧ m ≠ n) := by
  simp [setHandle]

theorem lookup_setCommon (h : Host) (name name' : CommonName) (db : Database) :
    (h.setCommon name db).commons.lookup name' =
      if name' = name then some db else h.commons.lookup name' := by
  rw [setCommon, List.lookup_cons, lookup_filter fun k => k != name]
  by_cases hname : name' = name
  · simp [hname]
  · have hne : (name' == name) = false := beq_eq_false_iff_ne.mpr hname
    simp [hname, hne]

theorem lookup_setCommon_self (h : Host) (name : CommonName) (db : Database) :
    (h.setCommon name db).commons.lookup name = some db := by
  rw [lookup_setCommon, if_pos rfl]

theorem Regular.fit (hh : h.Regular checked) {n : Nat} {handle : Handle}
    (hn : h.handle? n = some handle) : Fit checked h handle :=
  hh.handles n handle (mem_of_handle? hn)

/-- A store that is fit stays so as long as its tables do. -/
theorem Fit.mono {handle : Handle} (hfit : Fit checked h handle)
    (hcommons : ∀ name db, handle.commonName? = some name → h.commons.lookup name = some db →
      Furnished db → ∃ db', h'.commons.lookup name = some db' ∧ Furnished db')
    (hfile : ∀ db, h.file.database = some db → Furnished db →
      ∃ db', h'.file.database = some db' ∧ Furnished db') : Fit checked h' handle := by
  cases handle with
  | memory s => exact hfit
  | sealed db => exact hfit
  | common name a =>
      obtain ⟨hreads, db, hdb, htables⟩ := hfit
      exact ⟨hreads, hcommons name db rfl hdb htables⟩
  | shared known =>
      obtain ⟨hknown, db, hdb, htables⟩ := hfit
      exact ⟨hknown, hfile db hdb htables⟩

theorem Furnished.becomes {db db' : Database} (hdb : Furnished db)
    (h : Database.Becomes checked db db') : Furnished db' :=
  ⟨h.has_of_has hdb.1, h.has_of_has hdb.2⟩

theorem Regular.setHandle (hh : h.Regular checked) (n : Nat) {store : Handle}
    (hstore : Fit checked h store) : (h.setHandle n store).Regular checked where
  file := hh.file
  commons := hh.commons
  handles m handle hm := by
    have hfit : Fit checked h handle := by
      rcases mem_handles_setHandle.mp hm with ⟨-, rfl⟩ | ⟨hm, -⟩
      · exact hstore
      · exact hh.handles m handle hm
    exact hfit.mono (fun _ db _ hdb htables => ⟨db, hdb, htables⟩)
      fun db hdb htables => ⟨db, hdb, htables⟩

theorem Regular.setCommon (hh : h.Regular checked) {name : CommonName} {db : Database}
    (hdb : Database.Becomes checked ((h.commons.lookup name).getD .empty) db) :
    (h.setCommon name db).Regular checked where
  file := hh.file
  commons name' db' hdb' := by
    rw [lookup_setCommon] at hdb'
    split_ifs at hdb' with hname
    · rw [← Option.some.inj hdb']
      refine hdb.regular ?_
      cases hold : h.commons.lookup name with
      | none => exact Database.empty_regular
      | some old => exact hh.commons name old hold
    · exact hh.commons name' db' hdb'
  handles n handle hn := by
    refine (hh.handles n handle hn).mono (fun name' old _ hold htables => ?_)
      fun old hold htables => ⟨old, hold, htables⟩
    rw [lookup_setCommon]
    split_ifs with hname
    · rw [← hname, hold] at hdb
      exact ⟨db, rfl, htables.becomes hdb⟩
    · exact ⟨old, hold, htables⟩

theorem Regular.setFile (hh : h.Regular checked) {f : SharedFile}
    (hf : ∀ db, h.file.database = some db →
      ∃ db', f.database = some db' ∧ Database.Becomes checked db db') :
    ({ h with file := f } : Host).Regular checked where
  file := by
    obtain ⟨db, hdb, hregular⟩ := hh.file
    obtain ⟨db', hdb', hbecomes⟩ := hf db hdb
    exact ⟨db', hdb', hbecomes.regular hregular⟩
  commons := hh.commons
  handles n handle hn := by
    refine (hh.handles n handle hn).mono (fun _ db _ hdb htables => ⟨db, hdb, htables⟩) ?_
    intro db hdb htables
    obtain ⟨db', hdb', hbecomes⟩ := hf db hdb
    exact ⟨db', hdb', htables.becomes hbecomes⟩

/-- Tables under a common name stay as long as a store has them open. -/
theorem lookup_close (h : Host) (n : Nat) (name : CommonName) :
    (h.close n).1.commons.lookup name =
      if (h.handles.filter fun p => p.1 != n).any fun p => p.2.commonName? == some name
      then h.commons.lookup name else none :=
  lookup_filter (fun name =>
    (h.handles.filter fun p => p.1 != n).any fun p => p.2.commonName? == some name) _ _

theorem Regular.close (hh : h.Regular checked) (n : Nat) : (h.close n).1.Regular checked := by
  refine ⟨hh.file, fun name db hdb => ?_, fun m handle hm => ?_⟩
  · rw [lookup_close] at hdb
    split_ifs at hdb
    exact hh.commons name db hdb
  · have hold : (m, handle) ∈ h.handles := (List.mem_filter.mp hm).1
    refine (hh.handles m handle hold).mono (fun name db hname hdb htables => ?_)
      fun db hdb htables => ⟨db, hdb, htables⟩
    rw [lookup_close, if_pos]
    · exact ⟨db, hdb, htables⟩
    · refine List.any_eq_true.mpr ⟨(m, handle), hm, ?_⟩
      rw [hname, beq_self_eq_true]

/-! ### Opening -/

theorem exists_eq_ok {ε α : Type} {x : Except ε α} (hx : x.isOk = true) : ∃ a, x = .ok a := by
  cases x with
  | error e => cases hx
  | ok a => exact ⟨a, rfl⟩

theorem Regular.openSealed (hh : h.Regular checked) (now : Instant) (n : Nat) (c : StoreConfig)
    (journal : Option String) (changes : Bool) :
    (openAt.ofSealed h now n c journal changes).store.Regular checked := by
  have hempty : (Database.empty).Regular checked := Database.empty_regular
  have hbecomes : Database.Becomes checked .empty _ :=
    Database.openStore_becomes { changes := changes } now c journal .empty
  unfold openAt.ofSealed
  simp only
  split
  · rename_i hok
    obtain ⟨ids, hids⟩ := exists_eq_ok hok
    obtain ⟨he, hs, -⟩ := Database.openStore_has hempty hids
    exact hh.setHandle n ⟨hbecomes.regular hempty, he, hs⟩
  · exact hh

theorem Regular.openCommon (hh : h.Regular checked) (now : Instant) (n : Nat) (c : StoreConfig)
    (name : CommonName) (changes : Bool) :
    (h.openAt now n c (some (.common name changes))).store.Regular checked := by
  have hold : ((h.commons.lookup name).getD .empty).Regular checked := by
    cases hlookup : h.commons.lookup name with
    | none => exact Database.empty_regular
    | some db => exact hh.commons name db hlookup
  simp only [Host.openAt]
  split
  · rename_i hok
    obtain ⟨ids, hids⟩ := exists_eq_ok hok
    obtain ⟨he, hs, -⟩ := Database.openStore_has hold hids
    refine (hh.setCommon (Database.openStore_becomes _ now c _ _)).setHandle n ⟨rfl, _, ?_, he, hs⟩
    rw [lookup_setCommon, if_pos rfl]
  · exact hh

theorem Regular.openShared (hh : h.Regular checked) (now : Instant) (n : Nat)
    (c : StoreConfig) : (h.openAt now n c (some .shared)).store.Regular checked := by
  obtain ⟨db, hdb, hregular⟩ := hh.file
  obtain ⟨db', hdb', hbecomes, hhas⟩ := h.file.openStore_database now c hdb hregular
  have hrest : ({ h with file := (h.file.openStore now c).store } : Host).Regular checked := by
    refine hh.setFile fun db₀ hdb₀ => ?_
    obtain rfl := Option.some.inj (hdb.symm.trans hdb₀)
    exact ⟨db', hdb', hbecomes⟩
  simp only [Host.openAt, hdb', Option.getD_some]
  split
  · rename_i hok
    obtain ⟨he, hs, -⟩ := hhas hok
    refine hrest.setHandle n ⟨fun t => ?_, db', hdb', he, hs⟩
    rw [Database.standing_outline]
    exact (hbecomes.regular hregular).standing_ne_unrelated t
  · exact hrest

theorem Regular.openAt (hh : h.Regular checked) (now : Instant) (n : Nat) (c : StoreConfig)
    (place : Option Place) : (h.openAt now n c place).store.Regular checked := by
  match place with
  | none => exact hh.openSealed now n c none true
  | some (.sealed journal changes) => exact hh.openSealed now n c (some journal) changes
  | some (.common name changes) => exact hh.openCommon now n c name changes
  | some .shared => exact hh.openShared now n c

theorem Regular.openStore (hh : h.Regular checked) (now : Instant) (n : Nat)
    (c : StoreConfig) : (h.openStore now n c).1.Regular checked := by
  unfold Host.openStore
  simp only
  split
  · exact hh.close n
  · split_ifs
    · exact hh.close n
    · exact (hh.close n).openAt now n c _

/-! ### Operations -/

theorem Regular.run (hh : h.Regular checked) {now : Instant} {n : Nat} {op : Operation}
    {o : Outcome Host Answer} (ho : h.run now n op = some o) : o.store.Regular checked := by
  obtain ⟨handle, hn, rfl⟩ := Option.map_eq_some_iff.mp ho
  have hfit := hh.fit hn
  cases handle with
  | memory s => exact hh.setHandle n (MemoryStore.Sound.run hfit now op)
  | sealed db =>
      have hstep : Database.Altered checked db _ := FileStore.run_altered .free now db op
      exact hh.setHandle n ⟨hstep.regular hfit.1, hfit.2.becomes hstep.becomes⟩
  | common name a => exact hh.setCommon (FileStore.run_altered a now _ op).becomes
  | shared known =>
      obtain ⟨hknown, db, hdb, htables⟩ := hfit
      have hstep : Database.Altered checked db _ :=
        FileStore.runKnowing_altered known h.file.access now db op
      obtain ⟨db₀, hdb₀, hregular⟩ := hh.file
      obtain rfl := Option.some.inj (hdb.symm.trans hdb₀)
      simp only [hdb, Option.getD_some]
      refine (hh.setFile fun db₁ hdb₁ => ?_).setHandle n
        ⟨fun t => ?_, _, SharedFile.database_put _ _, htables.becomes hstep.becomes⟩
      · obtain rfl := Option.some.inj (hdb.symm.trans hdb₁)
        exact ⟨_, SharedFile.database_put _ _, hstep.becomes⟩
      -- a store remembers what it did before or what it has just seen
      · rcases FileStore.runKnowing_outline known h.file.access now db op with hsame | ⟨hlooked, -⟩
        · rw [hsame]
          exact hknown t
        · rw [hlooked, Database.standing_outline]
          exact hregular.standing_ne_unrelated t

/-- Whatever happens next, a regular host stays regular. -/
theorem Step.regular (hstep : Step checked h h') (hh : h.Regular checked) :
    h'.Regular checked := by
  cases hstep with
  | opened now n c => exact hh.openStore now n c
  | openedMemory n => exact (hh.close n).setHandle n MemoryStore.empty_sound
  | closed n => exact hh.close n
  | ran now n op o running => exact hh.run running
  | visitBegun hold =>
      refine hh.setFile fun db hdb => ⟨db, ?_, .refl⟩
      rw [SharedFile.database_beginVisit, hdb]
  | visitEnded =>
      refine hh.setFile fun db hdb => ⟨db, ?_, .refl⟩
      rw [SharedFile.database_endVisit, hdb]
  | rowsChanged rules c references kinds rows =>
      refine hh.setFile fun db hdb => ?_
      obtain ⟨db', hdb', halt⟩ :=
        SharedFile.change_database_altered references kinds rows hdb
      exact ⟨db', hdb', halt.becomes⟩

/-- The host after a store has run a history of operations, each at its
instant. -/
def runAll (h : Host) (n : Nat) (history : List (Instant × Operation)) : Host :=
  history.foldl (fun h step => ((h.run step.1 n step.2).map Outcome.store).getD h) h

theorem Reached.runAll (hr : Reached checked h) (n : Nat) (history : List (Instant × Operation)) :
    Reached checked (h.runAll n history) := by
  induction history generalizing h with
  | nil => exact hr
  | cons step history ih =>
      -- a number under which no store is open leaves the host as it is
      have hfirst : Reached checked (((h.run step.1 n step.2).map Outcome.store).getD h) := by
        cases hrun : h.run step.1 n step.2 with
        | none => exact hr
        | some o => exact hr.step (.ran step.1 n step.2 o hrun)
      exact ih hfirst

/-- Whatever comes about from a fresh host is regular. -/
theorem Reached.regular (hr : Reached checked h) : h.Regular checked := by
  induction hr with
  | fresh path => exact fresh_regular path
  | step _ hstep ih => exact hstep.regular ih

/-! ### What an open store stands on -/

/-- The tables that an open store stands on, if it is on any. -/
def tables? (h : Host) : Handle → Option Database
  | .memory _ => none
  | .sealed db => some db
  | .common name _ => h.commons.lookup name
  | .shared _ => h.file.database

/-- The tables that the store of a number stands on, if it is on any. -/
def tablesOf? (h : Host) (n : Nat) : Option Database := (h.handle? n).bind h.tables?

/-- The steps that an open store may take now on what it stands on. -/
def accessOf (h : Host) : Handle → Access
  | .common _ a => a
  | .shared _ => h.file.access
  | _ => .free

@[simp] theorem handle?_setHandle (h : Host) (n : Nat) (store : Handle) :
    (h.setHandle n store).handle? n = some store := by
  rw [handle?, Host.setHandle, List.lookup_cons_self]

theorem Regular.tables_regular (hh : h.Regular checked) {handle : Handle} {db : Database}
    (hfit : Fit checked h handle) (hdb : h.tables? handle = some db) :
    db.Regular checked ∧ Furnished db := by
  cases handle with
  | memory s => cases hdb
  | sealed own =>
      obtain rfl := Option.some.inj hdb
      exact hfit
  | common name a =>
      obtain ⟨-, db', hdb', htables⟩ := hfit
      obtain rfl := Option.some.inj (hdb'.symm.trans hdb)
      exact ⟨hh.commons name _ hdb, htables⟩
  | shared known =>
      obtain ⟨-, db', hdb', htables⟩ := hfit
      obtain ⟨db'', hdb'', hregular⟩ := hh.file
      obtain rfl := Option.some.inj (hdb'.symm.trans hdb)
      obtain rfl := Option.some.inj (hdb''.symm.trans hdb)
      exact ⟨hregular, htables⟩

/-- A store is in memory or stands on tables. -/
theorem Fit.memory_or_tables {handle : Handle} (hfit : Fit checked h handle) :
    (∃ s, handle = .memory s ∧ s.Sound) ∨ ∃ db, h.tables? handle = some db := by
  cases handle with
  | memory s => exact .inl ⟨s, rfl, hfit⟩
  | sealed db => exact .inr ⟨db, rfl⟩
  | common name a =>
      obtain ⟨-, db, hdb, -⟩ := hfit
      exact .inr ⟨db, hdb⟩
  | shared known =>
      obtain ⟨-, db, hdb, -⟩ := hfit
      exact .inr ⟨db, hdb⟩

/-- An operation of a store on tables is an operation of the file, whatever the
store remembers, and leaves what that leaves. -/
theorem Regular.run_tables (hh : h.Regular checked) {n : Nat} {handle : Handle} {db : Database}
    (hn : h.handle? n = some handle) (hdb : h.tables? handle = some db)
    (hreads : (h.accessOf handle).reads = true) (now : Instant) (op : Operation) :
    ∃ o, h.run now n op = some o ∧
      o.answer = (FileStore.run (h.accessOf handle) now db op).answer ∧
      o.store.tablesOf? n = some (FileStore.run (h.accessOf handle) now db op).store := by
  have hfit := hh.fit hn
  rw [Host.run, hn, Option.map_some]
  refine ⟨_, rfl, ?_⟩
  cases handle with
  | memory s => cases hdb
  | sealed own =>
      obtain rfl := Option.some.inj hdb
      refine ⟨rfl, ?_⟩
      rw [tablesOf?, handle?_setHandle]
      rfl
  | common name a =>
      have hlookup : h.commons.lookup name = some db := hdb
      simp only [hlookup, Option.getD_some]
      refine ⟨rfl, ?_⟩
      have hhandle : (h.setCommon name (FileStore.run a now db op).store).handle? n =
          some (.common name a) := hn
      rw [tablesOf?, hhandle, Option.bind_some, tables?, lookup_setCommon, if_pos rfl]
      rfl
  | shared known =>
      have hfile : h.file.database = some db := hdb
      have hreads : h.file.access.reads = true := hreads
      simp only [hfile, Option.getD_some, FileStore.runKnowing_eq_run hfit.1 hreads]
      refine ⟨rfl, ?_⟩
      rw [tablesOf?, handle?_setHandle, Option.bind_some]
      exact SharedFile.database_put _ _

theorem run_memory {n : Nat} {s : MemoryStore} (hn : h.handle? n = some (.memory s))
    (now : Instant) (op : Operation) :
    ∃ o, h.run now n op = some o ∧ o.answer = (s.run now op).answer ∧
      o.store.handle? n = some (.memory (s.run now op).store) := by
  rw [Host.run, hn, Option.map_some]
  exact ⟨_, rfl, rfl, handle?_setHandle _ _ _⟩

end OwnershipRegistry.Host
