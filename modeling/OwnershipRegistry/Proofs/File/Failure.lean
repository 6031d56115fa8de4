import OwnershipRegistry.MemoryStore
import OwnershipRegistry.Proofs.File.Transactions

/-!
Operations that fail. They have changed nothing, in memory and in the file,
whoever holds a lock; and no error goes away by itself but that of a lock, which
is met where a transaction begins or is finished.
-/

namespace OwnershipRegistry

open OwnershipRegistry.Except (OnError onError_ok onError_error)

/-! ### In memory -/

/-- In memory an operation that fails has changed nothing, and no error goes away
by itself. -/
theorem MemoryStore.run_of_error {s : MemoryStore} {now : Instant} {op : Operation}
    {e : RegistryError} (h : (s.run now op).answer = .error e) :
    (s.run now op).store = s ∧ e.Lasting := by
  have hregister {t : Target} {e : RegistryError} (h : (s.register t).answer = .error e) :
      (s.register t).store = s ∧ e.Lasting := by
    unfold register at h ⊢
    split_ifs at h ⊢
    · cases h
      exact ⟨rfl, rfl⟩
    · cases h
      exact ⟨rfl, rfl⟩
  cases op with
  | insertBacking t =>
      have h := Except.map_eq_error.mp h
      unfold insertBacking at h
      split_ifs at h
      cases h
  | register t => exact hregister (Except.map_eq_error.mp h)
  | ensureRegistered t =>
      obtain ⟨h, -⟩ := Outcome.answer_ensuring_eq_error.mp (Except.map_eq_error.mp h)
      rw [run, Outcome.store_map, Outcome.store_ensuring]
      exact hregister h
  | createSession new =>
      have h := Except.map_eq_error.mp h
      rw [run, Outcome.store_map]
      unfold createSession at h ⊢
      split_ifs at h ⊢
      · cases h
        exact ⟨rfl, rfl⟩
      · cases h
        exact ⟨rfl, rfl⟩
  | deleteSession id =>
      have h := Except.map_eq_error.mp h
      rw [run, Outcome.store_map]
      unfold deleteSession at h ⊢
      split at h
      · cases h
        exact ⟨rfl, rfl⟩
      · cases h
  | deleteBacking t | backingDeleted t | deleteAllSessions t | backingExists t | lookup t
  | listEntities | getSession id | listSessions t | verify => cases h

namespace FileStore

variable {a : Access} {now : Instant} {db : Database} {op : Operation}

/-! ### Failure changes nothing -/

theorem register_store_of_error {t : Target} {e : RegistryError}
    (h : (register a db t).answer = .error e) : (register a db t).store = db :=
  store_of_answer_writing (by simpa [register] using h)

/-- A deletion of sessions that finds none leaves the file as it was. -/
theorem store_of_no_deletion {p : SessionRow → Bool} {events : Nat → List Event}
    (h : (writing a db (fun db =>
      (a.change db .deleteSession (db.deleteSessions {} p)).mapError .ofFault) events).answer =
        .ok 0) :
    (writing a db (fun db =>
      (a.change db .deleteSession (db.deleteSessions {} p)).mapError .ofFault) events).store =
        db := by
  unfold writing Access.write at h ⊢
  split
  · rename_i db' n hwrite
    rw [hwrite] at h
    obtain rfl : n = 0 := Except.ok.inj h
    split at hwrite
    · split at hwrite
      · cases hwrite
      · rename_i r hr
        split at hwrite
        · obtain rfl := Except.ok.inj hwrite
          obtain ⟨rfl, hn⟩ :=
            Database.deleteSessions_eq_ok (change_eq_ok (Except.mapError_eq_ok.mp hr))
          refine Database.withoutSessions_eq_self fun s hs => ?_
          exact Bool.eq_false_iff.mpr (List.countP_eq_zero.mp hn.symm s hs)
        · cases hwrite
    · cases hwrite
  · rfl

/-- An operation that fails has changed nothing, whoever holds a lock. -/
theorem run_store_of_error {e : RegistryError} (h : (run a now db op).answer = .error e) :
    (run a now db op).store = db := by
  cases op with
  | insertBacking t => exact store_of_answer_writing (Except.map_eq_error.mp h)
  | deleteBacking t => exact store_of_answer_writing (Except.map_eq_error.mp h)
  | backingDeleted t =>
      exact store_of_answer_writing (by simpa [run, backingDeleted] using Except.map_eq_error.mp h)
  | register t => exact register_store_of_error (Except.map_eq_error.mp h)
  | ensureRegistered t =>
      obtain ⟨h, -⟩ := Outcome.answer_ensuring_eq_error.mp (Except.map_eq_error.mp h)
      rw [run, Outcome.store_map, Outcome.store_ensuring]
      exact register_store_of_error h
  | createSession new => exact store_of_answer_writing (Except.map_eq_error.mp h)
  | deleteSession id =>
      have h := Except.map_eq_error.mp h
      rw [run, Outcome.store_map]
      unfold deleteSession at h ⊢
      rcases Except.bind_eq_error.mp h with h | ⟨n, hn, h⟩
      · exact store_of_answer_writing h
      · split at h
        · rename_i hzero
          subst hzero
          exact store_of_no_deletion hn
        · cases h
  | deleteAllSessions t => exact store_of_answer_writing (Except.map_eq_error.mp h)
  | backingExists t | lookup t | listEntities | getSession id | listSessions t | verify => rfl

theorem runKnowing_store_of_error {known : Outline} {e : RegistryError}
    (h : (runKnowing known a now db op).1.answer = .error e) :
    (runKnowing known a now db op).1.store = db := by
  simp only [runKnowing] at h ⊢
  split at h
  · rfl
  · exact run_store_of_error h

/-! ### Locks -/

/-- Where no transaction can begin, every operation that takes the write lock
meets it. -/
theorem run_of_not_begins (ha : a.begins = false) (hop : op.takesLock = true) :
    (run a now db op).answer = .error .busy := by
  cases op with
  | insertBacking t => rw [run, insertBacking, writing_of_not_begins ha]; rfl
  | deleteBacking t => rw [run, deleteBacking, writing_of_not_begins ha]; rfl
  | backingDeleted t => rw [run, backingDeleted, writing_of_not_begins ha]; rfl
  | register t => rw [run, register, writing_of_not_begins ha]; rfl
  | ensureRegistered t => rw [run, register, writing_of_not_begins ha]; rfl
  | createSession new => rw [run, createSession, writing_of_not_begins ha]; rfl
  | deleteSession id => rw [run, deleteSession, writing_of_not_begins ha]; rfl
  | deleteAllSessions t => rw [run, deleteAllSessions, writing_of_not_begins ha]; rfl
  | backingExists t | lookup t | listEntities | getSession id | listSessions t | verify =>
      cases hop

theorem runKnowing_of_not_begins (ha : a.begins = false) (hop : op.takesLock = true)
    (known : Outline) :
    (runKnowing known a now db op).1.answer = .error .busy ∧
      (runKnowing known a now db op).2 = known := by
  have hrun : (run a now db op).answer = .error .busy := run_of_not_begins ha hop
  simp [runKnowing, ha, hop, hrun]

theorem parse_lasting (id tag : String) :
    OnError RegistryError.Lasting (Target.parse id tag) := by
  rw [Target.parse]
  split
  · exact onError_ok _
  · exact onError_error rfl

theorem toSession_lasting (x : SessionText) : OnError RegistryError.Lasting x.toSession := by
  refine (parse_lasting _ _).bind fun t => ?_
  split
  · exact onError_ok _
  · exact onError_error rfl

theorem violationsOf_lasting (es : List (String × String))
    (ss : List (String × String × String)) :
    OnError RegistryError.Lasting (violationsOf es ss) := by
  refine OnError.bind (OnError.mapM (fun x => ?_) es) fun _ =>
    OnError.bind (OnError.mapM (fun x => ?_) ss) fun _ => onError_ok _
  · exact (parse_lasting _ _).bind fun _ => onError_ok _
  · exact (parse_lasting _ _).bind fun _ => onError_ok _

theorem insertBacking_lasting (hb : a.begins = true) (hc : a.commits = true) (t : Target) :
    OnError RegistryError.Lasting (insertBacking a db t).answer := by
  refine writing_lasting hb hc ?_
  have hinsert : OnError Fault.Lasting (a.change db (.insertBacking t.kind)
      (db.insertBacking {} t.kind (some (.ofString t.id)))) :=
    change_lasting (db.insertBacking_lasting _ _)
  split
  · exact onError_ok _
  · rename_i f hf
    split_ifs
    · exact onError_ok _
    · exact onError_error (RegistryError.lasting_ofFault (hinsert f hf))

theorem deleteBacking_lasting (hb : a.begins = true) (hc : a.commits = true) (t : Target) :
    OnError RegistryError.Lasting (deleteBacking a db t).answer := by
  refine writing_lasting hb hc ?_
  refine OnError.bind (OnError.mapError (Database.entityPresent_lasting t) ?_) fun _ =>
    OnError.bind (OnError.mapError (Database.sessionIdsOf_lasting t) ?_) fun _ =>
      OnError.bind (OnError.mapError
        (change_lasting (Database.deleteBacking_lasting _ _)) ?_) fun _ => onError_ok _
  all_goals exact fun _ => RegistryError.lasting_ofFault

theorem backingDeleted_lasting (hb : a.begins = true) (hc : a.commits = true) (t : Target) :
    OnError RegistryError.Lasting (backingDeleted a db t).answer := by
  refine writing_lasting hb hc ?_
  refine OnError.bind (OnError.mapError (Database.backingPresent_lasting t) ?_) fun _ =>
    OnError.bind (OnError.mapError (Database.sessionIdsOf_lasting t) ?_) fun _ =>
      OnError.bind (OnError.mapError
        (change_lasting (Database.deleteEntities_lasting _)) ?_) fun _ => onError_ok _
  all_goals exact fun _ => RegistryError.lasting_ofFault

theorem register_lasting (hb : a.begins = true) (hc : a.commits = true) (t : Target) :
    OnError RegistryError.Lasting (register a db t).answer := by
  refine writing_lasting hb hc ?_
  have hinsert : OnError Fault.Lasting (a.change db .insertEntity
      (db.insertEntity {} (some (.ofString t.id)) (some (.ofString t.kind.tag)))) :=
    change_lasting (db.insertEntity_lasting _ _)
  split
  · exact onError_ok _
  · exact onError_error rfl
  · exact onError_error rfl
  · exact onError_error rfl
  · rename_i f _ _ _ hf
    exact onError_error (RegistryError.lasting_ofFault (hinsert f hf))

theorem createSession_lasting (hb : a.begins = true) (hc : a.commits = true) (now : Instant)
    (new : NewSession) : OnError RegistryError.Lasting (createSession a now db new).answer := by
  refine writing_lasting hb hc ?_
  have hinsert : OnError Fault.Lasting (a.change db .insertSession
      (db.insertSession {} (some (.ofString new.id.text)) (some (.ofString new.target.id))
        (some (.ofString new.target.kind.tag)) (new.name.map .ofString)
        (some (.ofString now.offsetText)))) :=
    change_lasting (db.insertSession_lasting _ _ _ _ _)
  split
  · exact onError_ok _
  · exact onError_error rfl
  · exact onError_error rfl
  · rename_i f _ _ hf
    exact onError_error (RegistryError.lasting_ofFault (hinsert f hf))

theorem deletion_lasting (hb : a.begins = true) (hc : a.commits = true)
    (p : SessionRow → Bool) (events : Nat → List Event) :
    OnError RegistryError.Lasting (writing a db (fun db =>
      (a.change db .deleteSession (db.deleteSessions {} p)).mapError .ofFault) events).answer := by
  refine writing_lasting hb hc ?_
  exact (change_lasting (Database.deleteSessions_lasting p)).mapError fun _ =>
    RegistryError.lasting_ofFault

/-- Where locks are in nobody's way, no error goes away by itself. -/
theorem run_lasting (hr : a.reads = true) (hb : a.begins = true) (hc : a.commits = true)
    (now : Instant) (db : Database) (op : Operation) :
    OnError RegistryError.Lasting (run a now db op).answer := by
  cases op with
  | insertBacking t => exact (insertBacking_lasting hb hc t).map _
  | backingExists t => exact (reading_lasting hr (Database.backingPresent_lasting t)).map _
  | deleteBacking t => exact (deleteBacking_lasting hb hc t).map _
  | backingDeleted t => exact (backingDeleted_lasting hb hc t).map _
  | register t => exact (register_lasting hb hc t).map _
  | ensureRegistered t =>
      refine OnError.map _ fun e he => ?_
      exact register_lasting hb hc t e (Outcome.answer_ensuring_eq_error.mp he).1
  | lookup t => exact (reading_lasting hr (Database.entityPresent_lasting t)).map _
  | listEntities =>
      refine OnError.map _ (OnError.bind (reading_lasting hr Database.entityTexts_lasting) ?_)
      exact fun xs => OnError.mapM (fun x => parse_lasting _ _) xs
  | createSession new => exact (createSession_lasting hb hc now new).map _
  | getSession id =>
      refine OnError.map _ (OnError.bind (reading_lasting hr (Database.sessionText?_lasting id)) ?_)
      exact fun x => OnError.optionMapM toSession_lasting x
  | listSessions t =>
      refine OnError.map _
        (OnError.bind (reading_lasting hr (Database.sessionTextsOf_lasting t)) ?_)
      exact fun xs => OnError.mapM toSession_lasting xs
  | deleteSession id =>
      refine OnError.map _ (OnError.bind (deletion_lasting hb hc _ _) fun n => ?_)
      split
      · exact onError_error rfl
      · exact onError_ok _
  | deleteAllSessions t => exact (deletion_lasting hb hc _ _).map _
  | verify =>
      refine OnError.map _ (OnError.bind (reading_lasting hr Database.orphans_lasting) ?_)
      exact fun x => violationsOf_lasting x.1 x.2

theorem runKnowing_lasting (hr : a.reads = true) (hb : a.begins = true)
    (hc : a.commits = true) (known : Outline) (now : Instant) (db : Database) (op : Operation) :
    OnError RegistryError.Lasting (runKnowing known a now db op).1.answer := by
  simp only [runKnowing]
  split
  · rename_i fault hfault
    have hrecall := (Option.ite_none_right_eq_some.mp hfault).2
    exact onError_error
      (RegistryError.lasting_ofFault (Outline.ofTables_of_recalled hrecall).lasting)
  · exact run_lasting hr hb hc now db op

end FileStore

end OwnershipRegistry
