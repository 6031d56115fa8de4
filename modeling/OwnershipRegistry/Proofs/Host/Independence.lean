import OwnershipRegistry.Proofs.File.Image
import OwnershipRegistry.Proofs.File.Independence
import OwnershipRegistry.Proofs.Host.Creation
import OwnershipRegistry.Proofs.Memory.Independence

/-!
Independent changes commute, wherever their store is. The footprint of a change is its
target, the session identifier that it names and the owner of that session. Two changes
with disjoint footprints answer the same in either order and leave the same host: the
same rows, the same count of the changes of the file and the same memory of it.
-/

namespace OwnershipRegistry

theorem Access.reads_of_begins_under {writtenAhead : Bool} {hold : Option Hold}
    (h : (Access.under writtenAhead hold).begins = true) :
    (Access.under writtenAhead hold).reads = true := by
  cases hold with
  | none => rfl
  | some hold => cases hold <;> first | rfl | exact nomatch h

/-- A change begins only where the file can be read, and then what is remembered makes
no difference; what is remembered afterwards is how the tables stood. -/
theorem FileStore.runKnowing_of_takesLock {known : Outline} {a : Access} {op : Operation}
    (ho : known.Plain) (ha : a.begins = true → a.reads = true) (hop : op.takesLock = true)
    (now : Instant) (db : Database) :
    runKnowing known a now db op = (run a now db op, if a.begins then db.outline else known) := by
  simp only [runKnowing, hop, Bool.not_true, Bool.false_or]
  cases hb : a.begins with
  | false => rfl
  | true => simp only [ha hb, if_true, ho.recalled_eq_none, Bool.and_self]

namespace SharedFile

theorem put_eq_self {f : SharedFile} {db : Database} (hdb : f.database = some db)
    (h : db.Provisioned) : f.put db = f := by
  rw [put, hdb, Option.any_some, if_pos ((h.holdsAs_iff h).mpr rfl), ← hdb]

theorem put_eq {f : SharedFile} {db db' : Database} (hdb : f.database = some db)
    (h : db.Provisioned) (h' : db'.Provisioned) (hne : db' ≠ db) :
    f.put db' = { f with database := some db', version := f.version + 1 } := by
  rw [put, hdb, Option.any_some, if_neg (mt (h'.holdsAs_iff h).mp hne)]

/-- Two changes of the file one after the other, in either order, where each step changes
the file just if it does so in the other order. -/
theorem put_put {f : SharedFile} {db first second both : Database}
    (hdb : f.database = some db) (h : db.Provisioned) (h₁ : first.Provisioned)
    (h₂ : second.Provisioned) (h₁₂ : both.Provisioned) (hsecond : both = first ↔ second = db)
    (hfirst : both = second ↔ first = db) :
    (f.put first).put both = (f.put second).put both := by
  by_cases hf : first = db
  · obtain rfl := hfirst.mpr hf
    rw [hf, put_eq_self hdb h, put_eq_self (database_put f both) h₁₂]
  · by_cases hs : second = db
    · obtain rfl := hsecond.mpr hs
      rw [hs, put_eq_self hdb h, put_eq_self (database_put f both) h₁₂]
    · rw [put_eq (database_put f first) h₁ h₁₂ (mt hsecond.mp hs),
        put_eq (database_put f second) h₂ h₁₂ (mt hfirst.mp hf), put_eq hdb h h₁ hf,
        put_eq hdb h h₂ hs]

end SharedFile

namespace Host

variable {h : Host} {n : Nat} {now now' : Instant} {op op' : Operation} {checked : Bool}

/-- Whether the session with an identifier is one of an owner's, in the store of a
number. -/
def Owns (h : Host) (n : Nat) (r : EntityRow) (id : SessionId) : Prop :=
  (∃ s, h.handle? n = some (.memory s) ∧
    ∃ x ∈ s.sessions.rows, EntityRow.ofTarget x.target = r ∧ x.id = id) ∨
  ∃ db, h.tablesOf? n = some db ∧ ∃ x ∈ db.sessionRows, x.owner = r ∧ x.id = .ofString id.text

/-- Two operations of a store with disjoint footprints. -/
def Apart (h : Host) (n : Nat) (op op' : Operation) : Prop :=
  Operation.Apart EntityRow.ofTarget (h.Owns n) op op'

/-! ### What a change makes of the host -/

theorem run_of_memory {s : MemoryStore} (hn : h.handle? n = some (.memory s)) (now : Instant)
    (op : Operation) :
    h.run now n op = some ⟨h.setHandle n (.memory (s.run now op).store), (s.run now op).answer,
      (s.run now op).events⟩ := by
  rw [run, hn]
  rfl

theorem run_of_sealed {db : Database} (hn : h.handle? n = some (.sealed db)) (now : Instant)
    (op : Operation) :
    h.run now n op = some ⟨h.setHandle n (.sealed (FileStore.run .free now db op).store),
      (FileStore.run .free now db op).answer, (FileStore.run .free now db op).events⟩ := by
  rw [run, hn]
  rfl

theorem run_of_common {name : CommonName} {a : Access} {db : Database}
    (hn : h.handle? n = some (.common name a)) (hdb : h.commons.lookup name = some db)
    (now : Instant) (op : Operation) :
    h.run now n op = some ⟨h.setCommon name (FileStore.run a now db op).store,
      (FileStore.run a now db op).answer, (FileStore.run a now db op).events⟩ := by
  rw [run, hn, Option.map_some]
  simp only [hdb, Option.getD_some]

/-- The host with another shared file, of which a store remembers something. -/
def withShared (h : Host) (n : Nat) (f : SharedFile) (known : Outline) : Host :=
  ({ h with file := f } : Host).setHandle n (.shared known)

@[simp] theorem handle?_withShared (h : Host) (n : Nat) (f : SharedFile) (known : Outline) :
    (h.withShared n f known).handle? n = some (.shared known) := handle?_setHandle _ _ _

@[simp] theorem file_withShared (h : Host) (n : Nat) (f : SharedFile) (known : Outline) :
    (h.withShared n f known).file = f := rfl

@[simp] theorem withShared_withShared (h : Host) (n : Nat) (f f' : SharedFile)
    (known known' : Outline) :
    (h.withShared n f known).withShared n f' known' = h.withShared n f' known' := by
  simp [withShared, setHandle]

/-- A change of the shared file; the store remembers how the tables stood if it could
look at them. -/
theorem run_of_shared {known : Outline} {a : Access} {db : Database}
    (hn : h.handle? n = some (.shared known)) (hdb : h.file.database = some db)
    (ha : h.file.access = a) (hknown : known.Plain) (hop : op.takesLock = true) (now : Instant) :
    h.run now n op = some
      ⟨h.withShared n (h.file.put (FileStore.run a now db op).store)
          (if a.begins then db.outline else known),
        (FileStore.run a now db op).answer, (FileStore.run a now db op).events⟩ := by
  have hreads : a.begins = true → a.reads = true := ha ▸ Access.reads_of_begins_under
  have hrun := FileStore.runKnowing_of_takesLock hknown hreads hop now db
  rw [run, hn, Option.map_some]
  simp only [hdb, Option.getD_some, ha, hrun, withShared]

@[simp] theorem setHandle_setHandle (h : Host) (n : Nat) (store store' : Handle) :
    (h.setHandle n store).setHandle n store' = h.setHandle n store' := by
  simp [setHandle]

@[simp] theorem setCommon_setCommon (h : Host) (name : CommonName) (db db' : Database) :
    (h.setCommon name db).setCommon name db' = h.setCommon name db' := by
  simp [setCommon]

/-- Two operations of a store run in either order; each answers and logs the same, and
the host comes out the same. -/
def Commute (h : Host) (n : Nat) (now now' : Instant) (op op' : Operation) : Prop :=
  ∃ o both o' both', h.run now n op = some o ∧ o.store.run now' n op' = some both ∧
    h.run now' n op' = some o' ∧ o'.store.run now n op = some both' ∧
    both'.answer = o.answer ∧ both'.events = o.events ∧
    both.answer = o'.answer ∧ both.events = o'.events ∧ both.store = both'.store

/-! ### Commuting -/

theorem Regular.commute_shared (hh : h.Regular checked) {known : Outline} {db : Database}
    (hn : h.handle? n = some (.shared known)) (hdb : h.file.database = some db)
    (hop : op.takesLock = true) (hop' : op'.takesLock = true)
    (hapart : FileStore.parted.Apart db op op') (now now' : Instant) :
    h.Commute n now now' op op' := by
  generalize ha : h.file.access = a
  have hprovisioned : db.Provisioned := (hh.tables_regular (hh.fit hn) hdb).1.provisioned
  have hafter (db : Database) (hdb : db.Provisioned) (op : Operation) (now : Instant) :
      (FileStore.run a now db op).store.Provisioned :=
    FileStore.confined.keeps (a, now) op hdb
  obtain ⟨hfirst, hsecond, hfirstEvents, hsecondEvents, hstore, hchanges⟩ :=
    FileStore.confined.commute (a, now) (a, now') hprovisioned hop hop' hapart
  have hchanges' :=
    (FileStore.confined.commute (a, now') (a, now) hprovisioned hop' hop hapart.symm).changes
  have hrun := run_of_shared hn hdb ha (hh.fit hn).1 hop now
  have hrun' := run_of_shared hn hdb ha (hh.fit hn).1 hop' now'
  have hknown : (if a.begins then db.outline else known).Plain :=
    ((hh.run hrun).fit (handle?_withShared _ _ _ _)).1
  have haccess (db : Database) : (h.file.put db).access = a := (SharedFile.access_put _ _).trans ha
  -- after either change the tables stand as before, and so does what is remembered of them
  have hkept (op : Operation) (now : Instant) :
      (if a.begins then (FileStore.run a now db op).store.outline else
        if a.begins then db.outline else known) = if a.begins then db.outline else known := by
    rw [(FileStore.run_sameTables a now db op).outline_eq]
    split_ifs <;> rfl
  refine ⟨_, _, _, _, hrun, run_of_shared (handle?_withShared _ _ _ _)
    (SharedFile.database_put _ _) (haccess _) hknown hop' now', hrun',
    run_of_shared (handle?_withShared _ _ _ _) (SharedFile.database_put _ _) (haccess _) hknown hop
      now, hfirst, hfirstEvents, hsecond, hsecondEvents, ?_⟩
  have hboth : (FileStore.run a now' (FileStore.run a now db op).store op').store =
      (FileStore.run a now (FileStore.run a now' db op').store op).store := hstore
  have hchanged : (FileStore.run a now (FileStore.run a now' db op').store op).store =
      (FileStore.run a now db op).store ↔ (FileStore.run a now' db op').store = db := by
    rw [← hboth]
    exact hchanges'
  simp only [withShared_withShared, file_withShared, hkept, hboth]
  exact congrArg (h.withShared n · _) (SharedFile.put_put hdb hprovisioned
    (hafter _ hprovisioned op now) (hafter _ hprovisioned op' now')
    (hafter _ (hafter _ hprovisioned op' now') op now) hchanged hchanges)

/-- What commutes on tables with the host around them. -/
theorem Regular.commute_tables (hh : h.Regular checked) {handle : Handle} {db : Database}
    (hn : h.handle? n = some handle) (hdb : h.tables? handle = some db)
    (hop : op.takesLock = true) (hop' : op'.takesLock = true)
    (hapart : FileStore.parted.Apart db op op') (now now' : Instant) :
    h.Commute n now now' op op' := by
  have hprovisioned : db.Provisioned := (hh.tables_regular (hh.fit hn) hdb).1.provisioned
  have hcommute (a : Access) : FileStore.parted.Commute db (a, now) (a, now') op op' :=
    FileStore.confined.commute (a, now) (a, now') hprovisioned hop hop' hapart
  cases handle with
  | memory s => cases hdb
  | sealed own =>
      obtain rfl := Option.some.inj hdb
      obtain ⟨hfirst, hsecond, hfirstEvents, hsecondEvents, hstore, -⟩ := hcommute .free
      refine ⟨_, _, _, _, run_of_sealed hn now op,
        run_of_sealed (handle?_setHandle _ _ _) now' op', run_of_sealed hn now' op',
        run_of_sealed (handle?_setHandle _ _ _) now op, hfirst, hfirstEvents, hsecond,
        hsecondEvents, ?_⟩
      simp only [setHandle_setHandle]
      exact congrArg _ (congrArg _ hstore)
  | common name a =>
      obtain ⟨hfirst, hsecond, hfirstEvents, hsecondEvents, hstore, -⟩ := hcommute a
      have hhandle (db : Database) : (h.setCommon name db).handle? n = some (.common name a) := hn
      refine ⟨_, _, _, _, run_of_common hn hdb now op,
        run_of_common (hhandle _) (lookup_setCommon_self _ _ _) now' op',
        run_of_common hn hdb now' op',
        run_of_common (hhandle _) (lookup_setCommon_self _ _ _) now op, hfirst, hfirstEvents,
        hsecond, hsecondEvents, ?_⟩
      simp only [setCommon_setCommon]
      exact congrArg _ hstore
  | shared known => exact hh.commute_shared hn hdb hop hop' hapart now now'

theorem commute_memory {s : MemoryStore} (hs : s.Sound)
    (hn : h.handle? n = some (.memory s)) (hop : op.takesLock = true)
    (hop' : op'.takesLock = true) (hapart : MemoryStore.parted.Apart s op op')
    (now now' : Instant) : h.Commute n now now' op op' := by
  obtain ⟨hfirst, hsecond, hfirstEvents, hsecondEvents, hstore, -⟩ :=
    MemoryStore.confined.commute now now' hs hop hop' hapart
  refine ⟨_, _, _, _, run_of_memory hn now op, run_of_memory (handle?_setHandle _ _ _) now' op',
    run_of_memory hn now' op', run_of_memory (handle?_setHandle _ _ _) now op, hfirst,
    hfirstEvents, hsecond, hsecondEvents, ?_⟩
  simp only [setHandle_setHandle]
  exact congrArg _ (congrArg _ hstore)

/-- Operations with disjoint footprints commute, whatever store they run on. -/
theorem Regular.commute (hh : h.Regular checked) {handle : Handle} (hn : h.handle? n = some handle)
    (hop : op.takesLock = true) (hop' : op'.takesLock = true) (hapart : h.Apart n op op')
    (now now' : Instant) : h.Commute n now now' op op' := by
  obtain ⟨s, rfl, hs⟩ | ⟨db, hdb⟩ := (hh.fit hn).memory_or_tables
  · refine commute_memory hs hn hop hop' ?_ now now'
    refine hapart.comap EntityRow.ofTarget (fun _ => rfl) ?_
    rintro t id ⟨x, hx, rfl, hid⟩
    exact .inl ⟨s, hn, x, hx, rfl, hid⟩
  · refine hh.commute_tables hn hdb hop hop' ?_ now now'
    have htables : h.tablesOf? n = some db := by rw [tablesOf?, hn, Option.bind_some, hdb]
    refine hapart.comap id (fun _ => rfl) ?_
    rintro r id ⟨x, hx, howner, hid⟩
    exact .inr ⟨db, htables, x, hx, howner, hid⟩

/-- An operation whose footprint is within one target. -/
def Concerns (h : Host) (n : Nat) (op : Operation) (t : Target) : Prop :=
  ∀ r, op.Touches EntityRow.ofTarget (h.Owns n) r → r = .ofTarget t

/-- Independent changes commute. However stores and visitors have come to where they are,
two changes of one store whose footprints are disjoint answer and log the same in either
order, errors, reports and counts included, and leave the same. So do changes that concern
a bot alone and a user alone under the same identifier, unless both name one session; those
that name no session concern their target alone. -/
theorem independent_commute (hr : Reached checked h) (hn : (h.handle? n).isSome)
    (hop : op.takesLock = true) (hop' : op'.takesLock = true) (now now' : Instant) :
    (h.Apart n op op' → h.Commute n now now' op op') ∧
    (∀ id, h.Concerns n op ⟨.bot, id⟩ → h.Concerns n op' ⟨.user, id⟩ →
      (∀ session, op.session? = some session → op'.session? ≠ some session) →
      h.Commute n now now' op op') ∧
    ∀ id, op.target? = some ⟨.bot, id⟩ → op'.target? = some ⟨.user, id⟩ → op.session? = none →
      op'.session? = none → h.Commute n now now' op op' := by
  obtain ⟨handle, hn⟩ := Option.isSome_iff_exists.mp hn
  have hcommute (hapart : h.Apart n op op') : h.Commute n now now' op op' :=
    hr.regular.commute hn hop hop' hapart now now'
  have hconcerns (id : String) (hbot : h.Concerns n op ⟨.bot, id⟩)
      (huser : h.Concerns n op' ⟨.user, id⟩)
      (hid : ∀ session, op.session? = some session → op'.session? ≠ some session) :
      h.Commute n now now' op op' :=
    hcommute (Operation.apart_of_targets (mt ofTarget_inj.mp (by simp)) hbot huser hid)
  refine ⟨hcommute, hconcerns, fun id hbot huser hsession hsession' => ?_⟩
  refine hconcerns id (fun r hr => hr.eq_part hbot hsession)
    (fun r hr => hr.eq_part huser hsession') fun session hsome => ?_
  cases hsession.symm.trans hsome

/-- In the file a bot goes and a user with its identifier is refused, in either order; and in
memory the session of the bot goes and one for the user is refused. -/
theorem independent_commute_bothStores :
    bothStores.Commute 1 .epoch .epoch (.deleteBacking ⟨.bot, "a"⟩) (.register ⟨.user, "a"⟩) ∧
      bothStores.Commute 2 .epoch .epoch (.deleteSession ⟨"s"⟩)
        (.createSession { id := ⟨"t"⟩, target := ⟨.user, "a"⟩ }) := by
  constructor
  · exact (independent_commute bothStores_reached rfl rfl rfl .epoch .epoch).2.2 "a" rfl rfl rfl rfl
  · have hsessions (s : MemoryStore) (hs : bothStores.handle? 2 = some (.memory s)) :
        s.sessions.rows = [⟨⟨"s"⟩, ⟨.bot, "a"⟩, none, .epoch⟩] := by
      obtain rfl := Handle.memory.inj (Option.some.inj (Eq.symm hs))
      decide +kernel
    have howner (r : EntityRow) (id : SessionId) (howns : bothStores.Owns 2 r id) :
        r = .ofTarget ⟨.bot, "a"⟩ ∧ id = ⟨"s"⟩ := by
      rcases howns with ⟨s, hs, x, hx, rfl, rfl⟩ | ⟨db, hdb, -⟩
      · rw [hsessions s hs, List.mem_singleton] at hx
        subst hx
        exact ⟨rfl, rfl⟩
      · cases hdb
    refine (independent_commute bothStores_reached rfl rfl rfl .epoch .epoch).2.1 "a" ?_ ?_ ?_
    · rintro r (⟨t, ht, -⟩ | ⟨id, -, howns⟩)
      · cases ht
      · exact (howner r id howns).1
    · rintro r (⟨t, ht, rfl⟩ | ⟨id, hid, howns⟩)
      · rw [← Option.some.inj ht]
      · obtain rfl := (howner r id howns).2
        exact absurd hid (by decide)
    · intro session hsome
      obtain rfl := Option.some.inj hsome
      decide

end Host

end OwnershipRegistry
