import OwnershipRegistry.Proofs.File.Effect
import OwnershipRegistry.Proofs.File.Removal

/-!
Insertions that fail. A new row is refused before it is looked at, or it breaks a
rule of its table, and the rule that it breaks tells what the tables held. So an
error of a registration is always right about the file, whatever the file holds
and whoever else uses it; and a new backing record that is left out either is
there already or is refused by its table.
-/

namespace OwnershipRegistry

/-- A fault that a new row meets before any rule for what it holds. -/
inductive Fault.Early : Fault → Prop
  | ofTables {fault : Fault} (h : fault.OfTables) : Early fault
  | readOnly : Early .readOnly
  | blocked : Early .blocked

namespace Database

variable {db : Database} {rules : Rules} {t : Target} {k : Kind} {fault : Fault}

/-- The table of the backing records of a kind takes no new row under an
identifier. -/
def Refuses (db : Database) (k : Kind) (c : Cell) : Prop :=
  ∃ b, db.backing k = some b ∧ b.Refuses c

/-- Whether a new backing record of a target is left out although none is there. -/
def LeavesOut (db : Database) (t : Target) : Prop :=
  db.Refuses t.kind (.ofString t.id) ∧ .ofString t.id ∉ db.backingIds t.kind

theorem understood_eq_error {α : Type} {s : Statement} {x : Except Fault α}
    (h : db.understood rules s x = .error fault) : fault.OfTables ∨ x = .error fault := by
  rw [understood] at h
  split at h
  · rename_i f hf
    obtain rfl := Except.error.inj h
    exact .inl (ofTables_of_refusal hf)
  · exact .inr h

theorem insertBacking_eq_error {c : Cell} (h : db.insertBacking rules k (some c) = .error fault) :
    fault.Early ∨ (fault.isOfRow = true ∧ db.Refuses k c) ∨
      (c ∈ db.backingIds k ∧ ∃ columns, fault = .taken columns) ∨ fault = .noReferent := by
  rcases understood_eq_error h with h | h
  · exact .inl (.ofTables h)
  · split_ifs at h with hblock
    · obtain rfl := Except.error.inj h
      exact .inl .blocked
    · cases hb : db.backing k with
      | none =>
          have hmade : ({} : BackingTable).Provisioned := rfl
          simp only [hb, Option.getD_none, hmade.faults_eq] at h
          cases h
      | some b =>
          simp only [hb, Option.getD_some] at h
          split at h
          · rename_i first rest hfaults
            obtain rfl := Except.error.inj h
            have hmem : first ∈ b.faults rules k c := by rw [hfaults]; exact List.mem_cons_self
            rcases BackingTable.tells_of_mem_faults hmem with
              ⟨hrow, hrefuses⟩ | ⟨htaken, hfault⟩ | hfault
            · exact .inr (.inl ⟨hrow, b, hb, hrefuses⟩)
            · exact .inr (.inr (.inl ⟨(mem_backingIds hb).mpr htaken, hfault⟩))
            · exact .inr (.inr (.inr hfault))
          · cases h

theorem insertEntity_eq_error
    (h : db.insertEntity {} (some (.ofString t.id)) (some (.ofString t.kind.tag)) =
      .error fault) :
    fault.Early ∨ (.ofTarget t ∈ db.entityRows ∧ ∃ columns, fault = .taken columns) ∨
      (.ofTarget t ∉ db.entityRows ∧ .ofString t.id ∉ db.backingIds t.kind ∧
        fault = .noReferent) := by
  have hkind : (Kind.all.any fun k => Cell.ofString t.kind.tag == .ofString k.tag) = true := by
    cases t.kind <;> decide
  rcases understood_eq_error h with h | h
  · exact .inl (.ofTables h)
  · simp only [hkind, Bool.not_true, Bool.and_false, Bool.true_and, Bool.false_eq_true,
      if_false] at h
    split_ifs at h with hblock htaken hbacked
    · obtain rfl := Except.error.inj h
      exact .inl .blocked
    · obtain rfl := Except.error.inj h
      exact .inr (.inl ⟨contains_entities.mp htaken, _, rfl⟩)
    · obtain rfl := Except.error.inj h
      have hnot : db.isBacked (.ofTarget t) = false := (Bool.not_eq_true' _).mp hbacked
      rw [isBacked_ofTarget, hasBackingRow, ← Bool.not_eq_true, any_backing] at hnot
      exact .inr (.inr ⟨fun hmem => htaken (contains_entities.mpr hmem), hnot, rfl⟩)

end Database

namespace FileStore

open Database

variable {a : Access} {db : Database} {t : Target} {c : Caller} {op : Operation}
  {e : RegistryError} {fault : Fault}

/-! ### Errors of insertions -/

theorem change_eq_error {α : Type} {s : Statement} {x : Except Fault α}
    (h : a.change db s x = .error fault) : fault.Early ∨ x = .error fault := by
  rw [Access.change] at h
  split at h
  · exact .inr h
  · rcases understood_eq_error h with h | h
    · exact .inl (.ofTables h)
    · obtain rfl := Except.error.inj h
      exact .inl .readOnly

theorem writing_eq_error {α : Type} {f : Database → Except RegistryError (Database × α)}
    {events : α → List Event} (h : (writing a db f events).answer = .error e) :
    e = .ofFault .locked ∨ f db = .error e := by
  cases hb : a.begins with
  | false =>
      rw [writing_of_not_begins hb] at h
      exact .inl (Except.error.inj h).symm
  | true =>
      cases hf : f db with
      | error e' =>
          rw [writing_of_error hb hf] at h
          exact .inr (congrArg _ (Except.error.inj h))
      | ok r =>
          cases hc : a.commits with
          | true => simp [writing, Access.write, hb, hf, hc] at h
          | false =>
              rw [writing_of_not_commits hb hc hf] at h
              exact .inl (Except.error.inj h).symm

/-- A fault is told as a transient error or as one of the storage. -/
theorem ofFault_ne (htransient : .transient fault ≠ e) (hstorage : .storage fault ≠ e) :
    RegistryError.ofFault fault ≠ e := by
  rw [RegistryError.ofFault]
  split
  · exact htransient
  · exact hstorage

/-- An error of a registration, with what it tells of the file; a fault tells
nothing. -/
inductive Rejection (db : Database) (t : Target) : RegistryError → Prop
  | duplicate (registered : .ofTarget t ∈ db.entityRows) : Rejection db t (.duplicateEntity t)
  | unbacked (unregistered : .ofTarget t ∉ db.entityRows)
      (absent : .ofString t.id ∉ db.backingIds t.kind) : Rejection db t (.unknownBacking t)
  | hindered (fault : Fault) : Rejection db t (.ofFault fault)

theorem Rejection.of_unbacked {t' : Target} (h : Rejection db t (.unknownBacking t')) :
    t' = t ∧ .ofTarget t ∉ db.entityRows ∧ .ofString t.id ∉ db.backingIds t.kind := by
  generalize he : RegistryError.unknownBacking t' = e at h
  cases h with
  | duplicate => cases he
  | unbacked unregistered absent =>
      exact ⟨RegistryError.unknownBacking.inj he, unregistered, absent⟩
  | hindered fault => exact absurd he.symm (ofFault_ne (by simp) (by simp))

theorem Rejection.ne_invalidKind (h : Rejection db t e) (tag : String) : e ≠ .invalidKind tag := by
  cases h with
  | duplicate | unbacked => simp
  | hindered fault => exact ofFault_ne (by simp) (by simp)

theorem register_rejection (h : (register a db t).answer = .error e) : Rejection db t e := by
  rcases writing_eq_error h with rfl | h
  · exact .hindered .locked
  · cases hchange : a.change db .insertEntity
        (db.insertEntity {} (some (.ofString t.id)) (some (.ofString t.kind.tag))) with
    | ok db' => simp [hchange] at h
    | error fault =>
        simp only [hchange] at h
        rcases (change_eq_error hchange).elim .inl insertEntity_eq_error with
          hearly | ⟨hmem, columns, rfl⟩ | ⟨hmem, hid, rfl⟩
        · obtain rfl : .ofFault fault = e := by
            cases hearly with
            | ofTables hf => cases hf <;> exact Except.error.inj h
            | readOnly | blocked => exact Except.error.inj h
          exact .hindered fault
        · obtain rfl := Except.error.inj h
          exact .duplicate hmem
        · obtain rfl := Except.error.inj h
          exact .unbacked hmem hid

theorem Caller.register_rejection (h : (c.run db (.register t)).answer = .error e) :
    Rejection db t e := by
  rw [Caller.run, runKnowing] at h
  split at h
  · obtain rfl := Except.error.inj h
    exact .hindered _
  · exact FileStore.register_rejection (Except.map_eq_error.mp h)

theorem Caller.ensureRegistered_rejection
    (h : (c.run db (.ensureRegistered t)).answer = .error e) :
    Rejection db t e ∧ ∀ t', e ≠ .duplicateEntity t' := by
  rw [Caller.run, runKnowing] at h
  split at h
  · obtain rfl := Except.error.inj h
    exact ⟨.hindered _, fun t' => ofFault_ne (by simp) (by simp)⟩
  · obtain ⟨h, hne⟩ := Outcome.answer_ensuring_eq_error.mp (Except.map_eq_error.mp h)
    exact ⟨FileStore.register_rejection h, hne⟩

/-! ### Backing records -/

/-- A new backing record is added, unless it is there already or is left out. -/
theorem insertBacking_ok {inserted : Bool} (h : (insertBacking a db t).answer = .ok inserted) :
    ((insertBacking a db t).store = db.withBackingRow t.kind (.ofString t.id) ∧
      (db.backing t.kind).isSome ∧ .ofString t.id ∉ db.backingIds t.kind ∧
        ¬db.Refuses t.kind (.ofString t.id)) ∨
    ((insertBacking a db t).store = db ∧
      (.ofString t.id ∈ db.backingIds t.kind ∨ db.Refuses t.kind (.ofString t.id))) := by
  have h := writing_eq_ok h
  cases hchange : a.change db (.insertBacking t.kind)
      (db.insertBacking {} t.kind (some (.ofString t.id))) with
  | ok db' =>
      simp only [hchange] at h
      obtain ⟨hstore, -⟩ := Prod.mk.inj (Except.ok.inj h)
      obtain ⟨id, b, hid, hb, hfaults, hfree, rfl⟩ := insertBacking_eq_ok (change_eq_ok hchange)
      obtain rfl := Option.some.inj hid
      refine .inl ⟨hstore.symm, by rw [hb, Option.isSome_some], hfree, ?_⟩
      rintro ⟨b', hb', hrefuses⟩
      obtain rfl := Option.some.inj (hb.symm.trans hb')
      exact (BackingTable.faults_eq_nil_iff.mp hfaults).not_refuses hrefuses
  | error fault =>
      simp only [hchange] at h
      rcases (change_eq_error hchange).elim .inl insertBacking_eq_error with
        hearly | ⟨hrow, hrefuses⟩ | ⟨hpresent, columns, rfl⟩ | rfl
      · cases hearly with
        | ofTables hf => cases hf <;> cases h
        | readOnly | blocked => cases h
      · rw [if_pos hrow] at h
        exact .inr ⟨(Prod.mk.inj (Except.ok.inj h)).1.symm, .inr hrefuses⟩
      · exact .inr ⟨(Prod.mk.inj (Except.ok.inj h)).1.symm, .inl hpresent⟩
      · cases h

theorem Caller.insertBacking_ok {x : Answer} (h : (c.run db (.insertBacking t)).answer = .ok x) :
    x = .done ∧
      (((c.run db (.insertBacking t)).store = db.withBackingRow t.kind (.ofString t.id) ∧
        (db.backing t.kind).isSome ∧ .ofString t.id ∉ db.backingIds t.kind ∧
          ¬db.Refuses t.kind (.ofString t.id)) ∨
      ((c.run db (.insertBacking t)).store = db ∧
        (.ofString t.id ∈ db.backingIds t.kind ∨ db.Refuses t.kind (.ofString t.id)))) := by
  have hrun := Caller.run_eq_of_ok h
  rw [hrun] at h ⊢
  obtain ⟨inserted, hinserted, hdone⟩ := Except.map_eq_ok.mp h
  exact ⟨hdone.symm, FileStore.insertBacking_ok hinserted⟩

/-- A record that is there, or that its table refuses, is not added. -/
theorem Caller.insertBacking_store_eq
    (h : .ofString t.id ∈ db.backingIds t.kind ∨ db.Refuses t.kind (.ofString t.id)) (c : Caller) :
    (c.run db (.insertBacking t)).store = db := by
  cases hanswer : (c.run db (.insertBacking t)).answer with
  | error e => exact runKnowing_store_of_error hanswer
  | ok x =>
      obtain ⟨-, ⟨-, -, habsent, haccepted⟩ | ⟨hstore, -⟩⟩ := Caller.insertBacking_ok hanswer
      · exact absurd h (not_or.mpr ⟨habsent, haccepted⟩)
      · exact hstore

theorem Caller.backingExists_eq (hr : c.access.reads = true) (hb : db.has (.ofKind t.kind) = true) :
    (c.run db (.backingExists t)).answer =
      .ok (.flag (db.hasBackingRow t.kind (.ofString t.id))) := by
  have hrun : c.run db (.backingExists t) = FileStore.run c.access c.now db (.backingExists t) := by
    refine Caller.run_of_rechecked hr (fun x hx => ?_) db
    exact Outline.rechecked_of_lacking hx
  have hpresent : db.backingPresent t = .ok (db.hasBackingRow t.kind (.ofString t.id)) :=
    understood_eq (refusal_readBacking hb) _
  rw [hrun, FileStore.run, reading_of_ok hr hpresent]
  rfl

end FileStore

end OwnershipRegistry
