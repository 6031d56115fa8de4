import OwnershipRegistry.Proofs.File.Reopening
import OwnershipRegistry.Proofs.File.Retry
import OwnershipRegistry.Proofs.Host.Shared

/-!
Which stores there are on the shared file, and when they are opened and closed,
makes no difference. Once one is open on a file with tables of backing records,
every store on the file remembers the file as it is, every operation does what it
does on the tables alone, and opening another store changes nothing. So the calls
of any number of stores come to what one store that stays open makes of them.
-/

namespace OwnershipRegistry.Host

variable {h h' : Host} {db : Database} {now : Instant} {n m : Nat} {c : StoreConfig}
  {log : List Entry} {known : Outline}

/-! ### Many stores and one -/

/-- Stores are opened and closed, and those on the shared file run operations;
the calls with their answers, in order, and the host in the end. -/
inductive Plays : Host → List Entry → Host → Prop
  | done (h : Host) : Plays h [] h
  | opened {h h' : Host} {log : List Entry} (now : Instant) (n : Nat) (c : StoreConfig)
      (rest : Plays (h.openStore now n c).1 log h') : Plays h log h'
  | closed {h h' : Host} {log : List Entry} (n : Nat) (rest : Plays (h.close n).1 log h') :
      Plays h log h'
  | ran {h h' : Host} {e : Entry} {log : List Entry} (n : Nat) (known : Outline)
      (o : Outcome Host Answer) (standing : h.handle? n = some (.shared known))
      (running : h.run e.now n e.call = some o) (answered : o.answer = e.answer)
      (rest : Plays o.store log h') : Plays h (e :: log) h'

/-- The calls of a journal. -/
def calls (log : List Entry) : List (Instant × Operation) := log.map fun e => (e.now, e.call)

/-- The journal of one store that runs a history of operations. -/
def journal (h : Host) (n : Nat) : List (Instant × Operation) → List Entry
  | [] => []
  | (now, op) :: history =>
    match h.run now n op with
    | none => []
    | some o => ⟨now, op, o.answer⟩ :: o.store.journal n history

/-! ### Stores that remember the file as it is -/

/-- Nobody but stores uses the file, and all of them remember it as it is. -/
structure Steady (db : Database) (h : Host) : Prop where
  alone : h.file.visit = none
  file : h.file.database = some db
  known : ∀ n known, h.handle? n = some (.shared known) → known = db.outline

theorem Steady.close (hs : Steady db h) (n : Nat) : Steady db (h.close n).1 where
  alone := hs.alone
  file := hs.file
  known m known hm := by
    rw [handle?_close] at hm
    split_ifs at hm
    exact hs.known m known hm

/-- A host stays steady when a store is put under a number, if the store is not on
the file or remembers it as it is. -/
theorem Steady.setHandle (hs : Steady db h) (n : Nat) {store : Handle}
    (hstore : ∀ known, store = .shared known → known = db.outline) :
    Steady db (h.setHandle n store) where
  alone := hs.alone
  file := hs.file
  known m known hm := by
    by_cases hmn : m = n
    · subst hmn
      rw [handle?_setHandle] at hm
      exact hstore known (Option.some.inj hm)
    · rw [handle?_setHandle_of_ne _ _ hmn] at hm
      exact hs.known m known hm

theorem Steady.setFile (hs : Steady db h) {f : SharedFile} (halone : f.visit = none)
    {db' : Database} (hfile : f.database = some db') (houtline : db'.outline = db.outline) :
    Steady db' { h with file := f } where
  alone := halone
  file := hfile
  known n known hn := (hs.known n known hn).trans houtline.symm

theorem Steady.openStore (hs : Steady db h) (hdb : db.Settled) (now : Instant) (n : Nat)
    (c : StoreConfig) : Steady db (h.openStore now n c).1 := by
  obtain ⟨hstore, hvisit, -⟩ := SharedFile.openStore_alone hs.file hs.alone now c
  rw [(hdb.prepare_eq rfl rfl now c).1] at hstore
  have hclosed := hs.close n
  have hopened := openStore_opened h now n c
  generalize (h.openStore now n c).1 = h' at hopened
  cases hopened with
  | refused => exact hclosed
  | sealed own => exact hclosed.setHandle n nofun
  | common name a =>
      have hcommon : Steady db ((h.close n).1.setCommon name
          ((((h.close n).1.commons.lookup name).getD .empty).openStore a now c
            (some memoryJournal)).store) := ⟨hclosed.alone, hclosed.file, hclosed.known⟩
      exact hcommon.setHandle n nofun
  | stopped e failed => exact hclosed.setFile hvisit hstore rfl
  | shared ms opened =>
      refine (hclosed.setFile hvisit hstore rfl).setHandle n fun known hknown => ?_
      rw [← Handle.shared.inj hknown, hstore]
      rfl

/-- Each store on the file runs an operation as the tables alone run it. -/
theorem Steady.run (hs : Steady db h) (hn : h.handle? n = some (.shared known)) (now : Instant)
    (op : Operation) :
    ∃ o, h.run now n op = some o ∧ o.answer = (FileStore.run .free now db op).answer ∧
      Steady (FileStore.run .free now db op).store o.store ∧
      o.store.handle? n = some (.shared db.outline) := by
  obtain rfl := hs.known n known hn
  have haccess : h.file.access = .free := SharedFile.access_of_alone hs.alone
  have hreads : Access.free.reads = true := rfl
  have hrun := FileStore.runKnowing_outline_eq_run hreads now db op
  have hafter : (FileStore.runKnowing db.outline .free now db op).2 = db.outline := by
    rcases FileStore.runKnowing_outline db.outline .free now db op with hsame | ⟨hlooked, -⟩
    · exact hsame
    · exact hlooked
  have houtline := (FileStore.run_sameTables .free now db op).outline_eq
  rw [Host.run, hn, Option.map_some]
  refine ⟨_, rfl, ?_⟩
  simp only [hs.file, Option.getD_some, haccess, hrun, hafter, handle?_setHandle]
  refine ⟨trivial, ?_, trivial⟩
  have hput : Steady (FileStore.run .free now db op).store
      { h with file := h.file.put (FileStore.run .free now db op).store } :=
    hs.setFile ((SharedFile.visit_put _ _).trans hs.alone) (SharedFile.database_put _ _) houtline
  exact hput.setHandle n fun known hknown => (Handle.shared.inj hknown).symm.trans houtline.symm

/-- Whatever stores do, their calls come to what one store makes of them. -/
theorem Steady.plays (hs : Steady db h) (hdb : db.Settled) (hplays : Plays h log h') {one : Host}
    (hone : Steady db one) (hn : one.handle? n = some (.shared known)) :
    one.journal n (calls log) = log ∧
      (one.runAll n (calls log)).file.database = h'.file.database := by
  -- by induction on what the stores do; the one store keeps up at every call
  induction hplays generalizing db one known with
  | done h => exact ⟨rfl, hone.file.trans hs.file.symm⟩
  | opened now m c rest ih => exact ih (hs.openStore hdb now m c) hdb hone hn
  | closed m rest ih => exact ih (hs.close m) hdb hone hn
  | @ran _ _ e log m known' o standing running answered rest ih =>
      obtain ⟨o₁, ho₁, hanswer₁, hsteady₁, -⟩ := hs.run standing e.now e.call
      obtain rfl := Option.some.inj (running.symm.trans ho₁)
      obtain ⟨o₂, ho₂, hanswer₂, hsteady₂, hn₂⟩ := hone.run hn e.now e.call
      have hsettled := hdb.sameTables (FileStore.run_sameTables .free e.now db e.call)
      obtain ⟨hlog, hfile⟩ := ih hsteady₁ hsettled hsteady₂ hn₂
      constructor
      · simp only [calls, List.map_cons, journal, ho₂]
        rw [hanswer₂, ← hanswer₁, answered]
        exact congrArg (e :: ·) hlog
      · rw [← hfile, calls, List.map_cons, runAll, List.foldl_cons, ho₂]
        rfl

/-- A property of the tables that every call keeps holds in the end. -/
theorem Steady.invariant (hs : Steady db h) (hdb : db.Settled) (hplays : Plays h log h')
    {P : Database → Prop} (hP : P db)
    (hstep : ∀ db e, P db → e ∈ log → (FileStore.run .free e.now db e.call).answer = e.answer →
      P (FileStore.run .free e.now db e.call).store) :
    ∃ db', Steady db' h' ∧ db'.Settled ∧ P db' := by
  induction hplays generalizing db with
  | done h => exact ⟨db, hs, hdb, hP⟩
  | opened now m c rest ih => exact ih (hs.openStore hdb now m c) hdb hP hstep
  | closed m rest ih => exact ih (hs.close m) hdb hP hstep
  | @ran _ _ e log m known o standing running answered rest ih =>
      obtain ⟨o₁, ho₁, hanswer, hsteady, -⟩ := hs.run standing e.now e.call
      obtain rfl := Option.some.inj (running.symm.trans ho₁)
      have hfirst := hstep db e hP List.mem_cons_self (hanswer.symm.trans answered)
      exact ih hsteady (hdb.sameTables (FileStore.run_sameTables .free e.now db e.call)) hfirst
        fun db e' hP hmem => hstep db e' hP (List.mem_cons_of_mem e hmem)

/-! ### The first opening -/

/-- A store that has been opened on a file with tables of backing records, where
no other was open, settles the file and remembers it as it is. -/
theorem steady_of_opened (hfile : h.file.database = some db)
    (hbacking : ∀ k, db.hasTable (.ofKind k) = true) (halone : h.file.visit = none)
    (hnone : ∀ m known, h.handle? m ≠ some (.shared known))
    (hopened : (h.openStore now n c).1.handle? n = some (.shared known)) :
    ∃ db', Steady db' (h.openStore now n c).1 ∧ db'.Settled := by
  obtain ⟨hstore, hvisit, hanswer⟩ := SharedFile.openStore_alone hfile halone now c
  have hclosed : (h.close n).1.handle? n = none := by
    rw [handle?_close, if_pos rfl]
  have hplace := openStore_opened h now n c
  generalize (h.openStore now n c).1 = h' at hplace hopened
  cases hplace with
  | refused =>
      rw [hclosed] at hopened
      cases hopened
  | sealed own =>
      rw [handle?_setHandle] at hopened
      cases hopened
  | common name a =>
      rw [handle?_setHandle] at hopened
      cases hopened
  | stopped e failed =>
      have hsame : (h.close n).1.handle? n = some (.shared known) := hopened
      rw [hclosed] at hsame
      cases hsame
  | shared ms done =>
      have hsettled : (db.prepare .free now c).store.Settled :=
        Database.settled_prepare hbacking (hanswer.symm.trans done)
      have hrest : Steady (db.prepare .free now c).store
          { (h.close n).1 with file := (h.file.openStore now c).store } := by
        refine ⟨hvisit, hstore, fun m known hm => ?_⟩
        have hm : (h.close n).1.handle? m = some (.shared known) := hm
        rw [handle?_close] at hm
        split_ifs at hm
        exact absurd hm (hnone m known)
      refine ⟨_, hrest.setHandle n fun known hknown => ?_, hsettled⟩
      rw [← Handle.shared.inj hknown, hstore]
      rfl

/-- Whatever stores do later, a session is read as it is, unless a call tells of
its going. -/
def ReadsBack (h : Host) (x : Session) : Prop :=
  ∀ log h', Plays h log h' → (∀ e ∈ log, ¬e.Ends x) →
    ∀ n known now, h'.handle? n = some (.shared known) →
      ∃ o, h'.run now n (.getSession x.id) = some o ∧ o.answer = .ok (.foundSession (some x))

theorem Steady.readsBack (hs : Steady db h) (hdb : db.Settled) {x : Session}
    (hx : .ofSession x ∈ db.sessionRows) (hera : x.createdAt.InEra) : h.ReadsBack x := by
  intro log h' hplays hstays n known now hn
  have hstep : ∀ db e, SessionRow.ofSession x ∈ db.sessionRows → e ∈ log →
      (FileStore.run .free e.now db e.call).answer = e.answer →
        SessionRow.ofSession x ∈ (FileStore.run .free e.now db e.call).store.sessionRows := by
    intro db e hx hmem hanswer
    refine FileStore.run_mem_sessionRows hx ?_
    rw [hanswer]
    exact hstays e hmem
  obtain ⟨db', hs', -, hx'⟩ := hs.invariant hdb hplays hx hstep
  obtain ⟨o, ho, hanswer, -⟩ := hs'.run hn now (.getSession x.id)
  exact ⟨o, ho, hanswer.trans (FileStore.getSession_of_mem rfl hx' hera now)⟩

/-- Once a store has been opened on a file with tables of backing records, it does
not matter to any answer nor to any row which stores on the file run the
operations and when stores are opened and closed; every session is read back as
it was made. And no opening of a store, on whatever host, takes a row away. -/
theorem reopening_transparent (hfile : h.file.database = some db)
    (hbacking : ∀ k, db.hasTable (.ofKind k) = true) (halone : h.file.visit = none)
    (hnone : ∀ m known, h.handle? m ≠ some (.shared known))
    (hopened : (h.openStore now n c).1.handle? n = some (.shared known)) :
    (∀ log h', Plays (h.openStore now n c).1 log h' →
      (h.openStore now n c).1.journal n (calls log) = log ∧
        ((h.openStore now n c).1.runAll n (calls log)).file.database = h'.file.database) ∧
      (∀ log h', Plays (h.openStore now n c).1 log h' →
        ∀ made m known new o x, h'.handle? m = some (.shared known) → made.InEra →
          h'.run made m (.createSession new) = some o → o.answer = .ok (.session x) →
            o.store.ReadsBack x) ∧
      ∀ (g : Host) later m (c' : StoreConfig),
        KeepsRows m (g.close m).1 (g.openStore later m c').1 := by
  obtain ⟨db', hs, hdb'⟩ := steady_of_opened hfile hbacking halone hnone hopened
  refine ⟨fun log h' hplays => hs.plays hdb' hplays hs hopened, ?_,
    fun g later m c' => (openStore_opened g later m c').keepsRows⟩
  intro log h' hplays made m known new o x hm hera hrun hanswer
  obtain ⟨db₁, hs₁, hdb₁, -⟩ := hs.invariant hdb' hplays (P := fun _ => True) trivial
    fun _ _ _ _ _ => trivial
  obtain ⟨o', ho', hanswer', hafter, -⟩ := hs₁.run hm made (.createSession new)
  obtain rfl := Option.some.inj (hrun.symm.trans ho')
  obtain ⟨rfl, hx⟩ := FileStore.createSession_mem_sessionRows (hanswer'.symm.trans hanswer)
  exact hafter.readsBack (hdb₁.sameTables (FileStore.run_sameTables .free made db₁ _)) hx hera

/-- A file that another program has given tables of backing records. -/
def provided : Host :=
  { file := { path := "registry.db", database := some { bots := some {}, users := some {} } } }

/-- A store on it. -/
def firstStore : Host := (provided.openStore .epoch 1 (.atPath "registry.db")).1

def twoCalls : List Entry :=
  [⟨.epoch, .insertBacking ⟨.bot, "a"⟩, .ok .done⟩,
    ⟨.epoch, .register ⟨.bot, "a"⟩, .ok (.entity ⟨.bot, "a"⟩)⟩]

/-- Between the calls the first store is closed and another one is opened with
other settings. -/
theorem reopening_transparent_twoCalls :
    ∃ h o, Plays firstStore twoCalls h ∧ firstStore.journal 1 (calls twoCalls) = twoCalls ∧
      (firstStore.runAll 1 (calls twoCalls)).file.database = h.file.database ∧
      h.run .epoch 2 (.createSession { id := ⟨"s"⟩, target := ⟨.bot, "a"⟩ }) = some o ∧
      o.store.ReadsBack ⟨⟨"s"⟩, ⟨.bot, "a"⟩, none, .epoch⟩ := by
  have hplays : ∃ h, Plays firstStore twoCalls h ∧
      ∃ known o, h.handle? 2 = some (.shared known) ∧
        h.run .epoch 2 (.createSession { id := ⟨"s"⟩, target := ⟨.bot, "a"⟩ }) = some o ∧
        o.answer = .ok (.session ⟨⟨"s"⟩, ⟨.bot, "a"⟩, none, .epoch⟩) := by
    let other : StoreConfig :=
      { path := some "registry.db", provisionBacking := false, writeAhead := false }
    refine ⟨_, .ran 1 _ _ rfl rfl rfl (.closed 1 (.opened .epoch 2 other
      (.ran 2 _ _ rfl rfl rfl (.done _)))), ?_⟩
    exact ⟨_, _, rfl, rfl, rfl⟩
  obtain ⟨h, hplays, known, o, hn, hrun, hanswer⟩ := hplays
  have hbacking (k : Kind) :
      ({ bots := some {}, users := some {} } : Database).hasTable (.ofKind k) = true := by
    cases k <;> rfl
  have hnone : ∀ m known, provided.handle? m ≠ some (.shared known) := by
    intro m known hm
    cases hm
  have hopened : ∃ known, firstStore.handle? 1 = some (.shared known) := ⟨_, rfl⟩
  obtain ⟨known₁, hopened⟩ := hopened
  obtain ⟨hone, hread, -⟩ := reopening_transparent (h := provided) rfl hbacking rfl hnone hopened
  obtain ⟨hlog, hfile⟩ := hone twoCalls h hplays
  have hera : Instant.epoch.InEra := by decide +kernel
  exact ⟨h, o, hplays, hlog, hfile, hrun, hread twoCalls h hplays .epoch 2 known _ o _ hn hera hrun
    hanswer⟩

end OwnershipRegistry.Host
