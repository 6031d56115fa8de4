import OwnershipRegistry.File.Opening
import OwnershipRegistry.File.Visitor
import OwnershipRegistry.Proofs.File.Failure

/-!
Operations that are tried again. A lock is the only thing that a later try may
not meet. What a store has come to remember in a try that failed is the file as
it is, and by that it understands as much as by looking; so once the lock is
gone the operation comes out as if it had not been tried before.
-/

namespace OwnershipRegistry

namespace FileStore

variable {a : Access} {now : Instant} {db : Database} {op : Operation}

/-! ### Remembering the file as it is -/

section Refusal

variable {f : Fault}

theorem insertBacking_of_refusal (hb : a.begins = true) {t : Target}
    (h : db.refusal {} (.insertBacking t.kind) = some f) :
    insertBacking a db t = ⟨db, .error (.ofFault f), []⟩ := by
  have hf := Database.ofTables_of_refusal h
  have hchange : a.change db (.insertBacking t.kind)
      (db.insertBacking {} t.kind (some (.ofString t.id))) = .error f := change_of_refusal h _
  refine writing_of_fault hb hf.lasting ?_
  rw [hchange]
  cases hf <;> rfl

theorem deleteBacking_of_refusal (hb : a.begins = true) {t : Target}
    (h : db.refusal {} .readEntities = some f) :
    deleteBacking a db t = ⟨db, .error (.ofFault f), []⟩ := by
  have hf := Database.ofTables_of_refusal h
  have hpresent : db.entityPresent t = .error f := Database.understood_of_refusal h _
  refine writing_of_fault hb hf.lasting ?_
  rw [hpresent]
  rfl

theorem backingDeleted_of_refusal (hb : a.begins = true) {t : Target}
    (h : db.refusal {} (.readBacking t.kind) = some f) :
    backingDeleted a db t = ⟨db, .error (.ofFault f), []⟩ := by
  have hf := Database.ofTables_of_refusal h
  have hpresent : db.backingPresent t = .error f := Database.understood_of_refusal h _
  rw [backingDeleted, writing_of_fault hb hf.lasting, hb, hpresent]
  · rfl
  · rw [hpresent]
    rfl

theorem register_of_refusal (hb : a.begins = true) {t : Target}
    (h : db.refusal {} .insertEntity = some f) :
    register a db t = ⟨db, .error (.ofFault f), [.registering t]⟩ := by
  have hf := Database.ofTables_of_refusal h
  have hchange : a.change db .insertEntity (db.insertEntity {} (some (.ofString t.id))
      (some (.ofString t.kind.tag))) = .error f := change_of_refusal h _
  rw [register, writing_of_fault hb hf.lasting]
  · rfl
  · rw [hchange]
    cases hf <;> rfl

theorem createSession_of_refusal (hb : a.begins = true) {new : NewSession}
    (h : db.refusal {} .insertSession = some f) :
    createSession a now db new = ⟨db, .error (.ofFault f), []⟩ := by
  have hf := Database.ofTables_of_refusal h
  let row := SessionRow.ofSession (new.toSession now)
  have hchange : a.change db .insertSession (db.insertSession {} (some row.id)
      (some row.targetId) (some row.targetKind) row.name (some row.createdAt)) = .error f :=
    change_of_refusal h _
  refine writing_of_fault hb hf.lasting ?_
  rw [hchange]
  cases hf <;> rfl

theorem deletion_of_refusal (hb : a.begins = true) {p : SessionRow → Bool}
    {events : Nat → List Event} (h : db.refusal {} .deleteSession = some f) :
    writing a db (fun db =>
      (a.change db .deleteSession (db.deleteSessions {} p)).mapError .ofFault) events =
      ⟨db, .error (.ofFault f), []⟩ := by
  have hf := Database.ofTables_of_refusal h
  have hchange : a.change db .deleteSession (db.deleteSessions {} p) = .error f :=
    change_of_refusal h _
  refine writing_of_fault hb hf.lasting ?_
  rw [hchange]
  rfl

/-- An operation whose first statement is not understood ends with it. -/
theorem run_of_refusal (hr : a.reads = true) (hb : op.takesLock = true → a.begins = true)
    (h : db.refusal {} op.firstStatement = some f) (now : Instant) :
    run a now db op = ⟨db, .error (.ofFault f), op.announcement⟩ := by
  have hf := (Database.ofTables_of_refusal h).lasting
  have hread {α : Type} {g : Database → Except Fault α} (hg : g db = .error f) :
      reading a db g = ⟨db, .error (.ofFault f), []⟩ := reading_of_fault hr hf hg
  cases op with
  | insertBacking t => rw [run, insertBacking_of_refusal (hb rfl) h]; rfl
  | backingExists t =>
      have hfirst : db.backingPresent t = .error f := Database.understood_of_refusal h _
      rw [run, hread hfirst]
      rfl
  | deleteBacking t => rw [run, deleteBacking_of_refusal (hb rfl) h]; rfl
  | backingDeleted t => rw [run, backingDeleted_of_refusal (hb rfl) h]; rfl
  | register t => rw [run, register_of_refusal (hb rfl) h]; rfl
  | ensureRegistered t =>
      rw [run, register_of_refusal (hb rfl) h]
      cases Database.ofTables_of_refusal h <;> rfl
  | lookup t =>
      have hfirst : db.entityPresent t = .error f := Database.understood_of_refusal h _
      rw [run, hread hfirst]
      rfl
  | listEntities =>
      have hfirst : db.entityTexts = .error f := Database.understood_of_refusal h _
      rw [run, listEntities, hread hfirst]
      rfl
  | createSession new => rw [run, createSession_of_refusal (hb rfl) h]; rfl
  | getSession id =>
      have hfirst : db.sessionText? id = .error f := Database.understood_of_refusal h _
      rw [run, getSession, hread hfirst]
      rfl
  | listSessions t =>
      have hrows : db.sessionRowsOf t = .error f := Database.understood_of_refusal h _
      have hfirst : db.sessionTextsOf t = .error f := by
        rw [Database.sessionTextsOf, hrows]
        rfl
      rw [run, listSessions, hread hfirst]
      rfl
  | deleteSession id => rw [run, deleteSession, deletion_of_refusal (hb rfl) h]; rfl
  | deleteAllSessions t => rw [run, deleteAllSessions, deletion_of_refusal (hb rfl) h]; rfl
  | verify =>
      have hentities : db.orphanEntities = .error f := Database.understood_of_refusal h _
      have hfirst : db.orphans = .error f := by
        rw [Database.orphans, hentities]
        rfl
      rw [run, hread hfirst]
      rfl

end Refusal

/-- A store that remembers the file as it is runs its operations as one that
looks. -/
theorem runKnowing_outline_eq_run (hr : a.reads = true) (now : Instant) (db : Database)
    (op : Operation) : (runKnowing db.outline a now db op).1 = run a now db op := by
  simp only [runKnowing]
  split
  · rename_i fault hfault
    obtain ⟨hstarts, hrecall⟩ := Option.ite_none_right_eq_some.mp hfault
    obtain ⟨x, hx, hf⟩ := Option.bind_eq_some_iff.mp hrecall
    have hrefusal : db.refusal {} op.firstStatement = some fault := by
      split at hf
      · cases hf
      · rw [Database.refusal, hx, Option.map_some, hf]
    refine (run_of_refusal hr (fun hop => ?_) hrefusal now).symm
    simpa [hop] using hstarts
  · rfl

/-- After an operation that has failed the same operation is run as if it had
not been run before. -/
theorem runKnowing_again {known : Outline} {e : RegistryError}
    (h : (runKnowing known a now db op).1.answer = .error e) :
    (runKnowing (runKnowing known a now db op).2 .free now (runKnowing known a now db op).1.store
      op).1 = (runKnowing known .free now db op).1 := by
  rw [runKnowing_store_of_error h]
  rcases runKnowing_outline known a now db op with hsame | ⟨hlooked, hrecall⟩
  · rw [hsame]
  · rw [hlooked, runKnowing_outline_eq_run rfl, runKnowing_eq_run_of_recalled rfl hrecall]

/-! ### Beside a reader -/

/-- The steps that are left while another program reads and changes are not
written ahead. -/
def besideReader : Access := { commits := false }

/-- A transaction beside a reader comes out as without one, or cannot be
finished; whatever is made of its outcome then. -/
theorem writing_besideReader {α : Type} {f : Database → Except RegistryError (Database × α)}
    {events : α → List Event} (post : Outcome Database α → Outcome Database Answer)
    (hpost : ∀ o, o.answer = .error .busy → (post o).answer = .error .busy) :
    post (writing besideReader db f events) = post (writing .free db f events) ∨
      (post (writing besideReader db f events)).answer = .error .busy := by
  cases hf : f db with
  | error e => exact .inl (by rw [writing_of_error rfl hf, writing_of_error rfl hf])
  | ok r =>
      refine .inr (hpost _ ?_)
      rw [writing_of_not_commits rfl rfl hf]

theorem map_busy {α : Type} (f : α → Answer) (o : Outcome Database α)
    (h : o.answer = .error .busy) : (o.map f).answer = .error .busy := by
  rw [Outcome.answer_map, h]
  rfl

/-- Beside a reader an operation comes out as without one, or it is one that
takes the write lock and cannot be finished. -/
theorem run_besideReader (now : Instant) (db : Database) (op : Operation) :
    run besideReader now db op = run .free now db op ∨
      op.takesLock = true ∧ (run besideReader now db op).answer = .error .busy := by
  cases op with
  | insertBacking t =>
      exact (writing_besideReader (·.map _) (map_busy _)).imp_right fun h => ⟨rfl, h⟩
  | deleteBacking t =>
      exact (writing_besideReader (·.map _) (map_busy _)).imp_right fun h => ⟨rfl, h⟩
  | backingDeleted t =>
      exact (writing_besideReader (fun o => (o.after _).map _) fun o ho =>
        map_busy _ _ ho).imp_right fun h => ⟨rfl, h⟩
  | register t =>
      exact (writing_besideReader (fun o => (o.after _).map _) fun o ho =>
        map_busy _ _ ho).imp_right fun h => ⟨rfl, h⟩
  | ensureRegistered t =>
      refine (writing_besideReader (fun o => ((o.after _).ensuring t).map _) fun o ho =>
        map_busy _ _ ?_).imp_right fun h => ⟨rfl, h⟩
      exact Outcome.answer_ensuring_eq_error.mpr ⟨ho, nofun⟩
  | createSession new =>
      exact (writing_besideReader (·.map _) (map_busy _)).imp_right fun h => ⟨rfl, h⟩
  | deleteSession id =>
      refine (writing_besideReader (fun o => (o.judge _).map _) fun o ho =>
        map_busy _ _ ?_).imp_right fun h => ⟨rfl, h⟩
      rw [Outcome.answer_judge, ho]
      rfl
  | deleteAllSessions t =>
      exact (writing_besideReader (·.map _) (map_busy _)).imp_right fun h => ⟨rfl, h⟩
  | backingExists t | lookup t | listEntities | getSession id | listSessions t | verify =>
      exact .inl rfl

theorem runKnowing_besideReader (known : Outline) (now : Instant) (db : Database)
    (op : Operation) :
    (runKnowing known besideReader now db op).1 = (runKnowing known .free now db op).1 ∨
      op.takesLock = true ∧
        (runKnowing known besideReader now db op).1.answer = .error .busy := by
  cases hrecall : known.recalled true {} op.firstStatement with
  | some fault => exact .inl (by simp [runKnowing, besideReader, Access.free, hrecall])
  | none =>
      rw [runKnowing_eq_run_of_recalled rfl hrecall, runKnowing_eq_run_of_recalled rfl hrecall]
      exact run_besideReader now db op

end FileStore

/-! ### On the shared file -/

namespace SharedFile

/-- Another program holds the write lock of the file. -/
def isWriteLocked (f : SharedFile) : Bool := f.visit.any fun v => v.hold != .read

/-- Another program reads the file in a transaction of its own. -/
def isRead (f : SharedFile) : Bool := f.visit.any fun v => v.hold == .read

theorem access_of_isWriteLocked {f : SharedFile} (h : f.isWriteLocked = true) :
    f.access.begins = false := by
  unfold isWriteLocked at h
  unfold access
  cases hv : f.visit with
  | none =>
      rw [hv] at h
      cases h
  | some v =>
      rw [hv, Option.any_some] at h
      cases hhold : v.hold with
      | read =>
          rw [hhold] at h
          cases h
      | immediate => simp [hhold, Access.under]
      | exclusive => simp [hhold, Access.under]

theorem access_of_not_isWriteLocked {f : SharedFile} (h : f.isWriteLocked = false) :
    f.access = if f.isRead && !f.writtenAhead then FileStore.besideReader else .free := by
  unfold isWriteLocked at h
  unfold access isRead
  cases hv : f.visit with
  | none => rfl
  | some v =>
      rw [hv, Option.any_some] at h
      have hhold : v.hold = .read := by simpa using h
      cases hw : f.writtenAhead <;> simp [hhold, Access.under, FileStore.besideReader, Access.free]

theorem access_endVisit (f : SharedFile) : f.endVisit.1.access = .free := by
  unfold endVisit
  split
  · rename_i hv
    simp [access, hv, Access.under]
  · rfl

/-- What an operation of a store on the shared file, which holds some tables and
of which the store remembers an outline, keeps to if it fails. -/
structure FailsSafely (f : SharedFile) (known : Outline) (db : Database) (now : Instant)
    (op : Operation) : Prop where
  /-- Nothing is changed. -/
  atomic : ∀ e, (FileStore.runKnowing known f.access now db op).1.answer = .error e →
    (FileStore.runKnowing known f.access now db op).1.store = db
  /-- Under a foreign write lock whatever may change something is to be tried
  again. -/
  locked : f.isWriteLocked = true → op.takesLock = true →
    (FileStore.runKnowing known f.access now db op).1.answer = .error (.transient .locked)
  /-- Otherwise nothing is, unless changes are not written ahead and somebody
  reads. -/
  lasting : f.isWriteLocked = false → (f.isRead = true → f.writtenAhead = true) →
    ∀ e, (FileStore.runKnowing known f.access now db op).1.answer = .error e →
      e.isRetryable = false
  /-- Beside such a reader an operation comes out as without one, or it takes the
  write lock, cannot be finished and is to be tried again. -/
  besideReader : f.isWriteLocked = false →
    (FileStore.runKnowing known f.access now db op).1 =
        (FileStore.runKnowing known .free now db op).1 ∨
      op.takesLock = true ∧
        (FileStore.runKnowing known f.access now db op).1.answer = .error (.transient .locked)
  /-- Tried again after the visitor has gone, it comes out as if it had not been
  tried before. -/
  again : ∀ e, (FileStore.runKnowing known f.access now db op).1.answer = .error e →
    (FileStore.runKnowing (FileStore.runKnowing known f.access now db op).2
        f.endVisit.1.access now (FileStore.runKnowing known f.access now db op).1.store op).1 =
      (FileStore.runKnowing known f.endVisit.1.access now db op).1

theorem runKnowing_failsSafely (f : SharedFile) (known : Outline) (db : Database)
    (now : Instant) (op : Operation) : f.FailsSafely known db now op where
  atomic e h := FileStore.runKnowing_store_of_error h
  locked h hop := (FileStore.runKnowing_of_not_begins (access_of_isWriteLocked h) hop known).1
  lasting h hread := by
    have hfree : f.access = .free := by
      rw [access_of_not_isWriteLocked h]
      cases hr : f.isRead with
      | false => rfl
      | true => simp [hread hr]
    rw [hfree]
    exact FileStore.runKnowing_lasting rfl rfl rfl known now db op
  besideReader h := by
    rw [access_of_not_isWriteLocked h]
    split
    · exact FileStore.runKnowing_besideReader known now db op
    · exact .inl rfl
  again e h := by
    rw [access_endVisit]
    exact FileStore.runKnowing_again h

end SharedFile

/-- An operation that fails has changed nothing, in memory, on tables of a store's
own and on the shared file; and what a lock was in the way of can be tried
again. -/
theorem errors_fail_safely :
    (∀ (s : MemoryStore) now op e, (s.run now op).answer = .error e →
      (s.run now op).store = s ∧ e.isRetryable = false) ∧
    (∀ a db now op e, (FileStore.run a now db op).answer = .error e →
      (FileStore.run a now db op).store = db ∧
        (a.reads = true → a.begins = true → a.commits = true → e.isRetryable = false)) ∧
    ∀ (f : SharedFile) known db now op, f.FailsSafely known db now op := by
  refine ⟨fun s now op e h => MemoryStore.run_of_error h, fun a db now op e h => ⟨?_, ?_⟩,
    SharedFile.runKnowing_failsSafely⟩
  · exact FileStore.run_store_of_error h
  · intro hr hb hc
    exact FileStore.run_lasting hr hb hc now db op e h

/-- A file without tables as a store opened it that does not write ahead, while
a visitor reads it. -/
def SharedFile.readByVisitor : SharedFile :=
  let new : SharedFile := { path := "registry.db", database := some .empty }
  let opened := (new.openStore .epoch { path := "registry.db", writeAhead := false }).store
  (opened.beginVisit .read).1

theorem errors_fail_safely_readByVisitor :
    (MemoryStore.empty.run .epoch (.deleteSession ⟨"s"⟩)).store = .empty ∧
      (FileStore.run .free .epoch .empty (.lookup ⟨.bot, "a"⟩)).store = .empty ∧
      ∃ db known, SharedFile.readByVisitor.database = some db ∧
        (FileStore.runKnowing known SharedFile.readByVisitor.access .epoch db
          (.insertBacking ⟨.bot, "a"⟩)).1.store = db ∧
        (FileStore.runKnowing known .free .epoch db (.insertBacking ⟨.bot, "a"⟩)).1.answer =
          .ok .done := by
  obtain ⟨hmemory, htables, hshared⟩ := errors_fail_safely
  obtain ⟨db, hdb⟩ : ∃ db, SharedFile.readByVisitor.database = some db := ⟨_, rfl⟩
  refine ⟨(hmemory .empty .epoch (.deleteSession ⟨"s"⟩) (.sessionNotFound ⟨"s"⟩) rfl).1,
    (htables .free .empty .epoch (.lookup ⟨.bot, "a"⟩) _ rfl).1, db, db.outline, hdb, ?_, ?_⟩
  · obtain rfl := Option.some.inj hdb
    exact (hshared _ _ _ _ _).atomic (.transient .locked) rfl
  · obtain rfl := Option.some.inj hdb
    rfl

theorem insertBacking_readByVisitor :
    ∃ db, SharedFile.readByVisitor.database = some db ∧
      SharedFile.readByVisitor.isWriteLocked = false ∧
      (FileStore.runKnowing db.outline SharedFile.readByVisitor.access .epoch db
        (.insertBacking ⟨.bot, "a"⟩)).1.answer = .error (.transient .locked) :=
  ⟨_, rfl, rfl, rfl⟩

end OwnershipRegistry
