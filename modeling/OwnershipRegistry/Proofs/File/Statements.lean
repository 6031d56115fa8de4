import OwnershipRegistry.Proofs.File.Rows
import OwnershipRegistry.Proofs.Outcome

/-!
Statements that succeed. A statement is understood only if its table is there,
and what it then makes of the file is one of the functions of the file's rows,
under the guards that the new row has passed. Nobody need look into a statement
again: each has one lemma here that says all that its success means.
-/

namespace OwnershipRegistry.Database

/-! ### Understanding -/

variable {db db' : Database} {rules : Rules}

theorem standing_outline (db : Database) (n : TableName) :
    db.outline.standing n = db.standing n := by
  cases n <;> rfl

theorem standing_eq_declared {n : TableName} : db.standing n = .declared ↔ db.has n = true := by
  unfold standing
  split
  · simp_all
  · split <;> simp_all

theorem lacking_eq_none {n : TableName} {f : Fault} :
    db.outline.lacking n f = none ↔ db.has n = true := by
  rw [← standing_eq_declared, ← standing_outline, Outline.lacking]
  cases db.outline.standing n <;> simp

theorem brokenReference_eq_none {child parent : TableName} :
    db.outline.brokenReference child parent = none ↔ db.has parent = true := by
  rw [← standing_eq_declared, ← standing_outline, Outline.brokenReference]
  cases db.outline.standing parent <;> simp

theorem understood_eq_ok {α : Type} {s : Statement} {f : Except Fault α} {x : α} :
    db.understood rules s f = .ok x ↔ db.refusal rules s = none ∧ f = .ok x := by
  unfold understood
  cases db.refusal rules s <;> simp

theorem understood_of_refusal {α : Type} {s : Statement} {fault : Fault}
    (h : db.refusal rules s = some fault) (f : Except Fault α) :
    db.understood rules s f = .error fault := by
  rw [understood, h]

theorem orElse_eq_none {α : Type} {x : Option α} {f : Unit → Option α} :
    x.orElse f = none ↔ x = none ∧ f () = none := by
  cases x <;> simp [Option.orElse]

theorem orElse_eq_some {α : Type} {x : Option α} {f : Unit → Option α} {a : α}
    (h : x.orElse f = some a) : x = some a ∨ f () = some a := by
  rw [Option.orElse_eq_or, Option.or_eq_some_iff] at h
  exact h.imp_right And.right

/-- Backing records can be looked up if all their tables are there. -/
theorem brokenBacking_eq_none :
    db.outline.brokenBacking = none ↔ ∀ k, db.has (.ofKind k) = true := by
  rw [Outline.brokenBacking, orElse_eq_none, brokenReference_eq_none, brokenReference_eq_none]
  constructor
  · rintro ⟨husers, hbots⟩ k
    cases k with
    | bot => exact hbots
    | user => exact husers
  · intro h
    exact ⟨h .user, h .bot⟩

/-- The table that a statement is about, if it is about one of the registry's. -/
def mainTable : Statement → Option TableName
  | .readBacking k | .insertBacking k | .deleteBacking k => some (.ofKind k)
  | .readEntities | .insertEntity | .deleteEntity => some .entities
  | .readSessions | .insertSession | .deleteSession => some .sessions
  | .readLedger | .recordMigration | .forgetMigration => some .ledger
  | _ => none

/-- A statement that is understood finds its table. -/
theorem has_of_refusal_eq_none {s : Statement} {n : TableName} (hs : mainTable s = some n)
    (h : db.refusal rules s = none) : db.has n = true := by
  have ho : db.outline.obstacle rules s = none := by simpa [refusal] using h
  cases s <;> simp only [mainTable, Option.some.injEq, reduceCtorEq] at hs <;> subst hs <;>
    simp only [Outline.obstacle, Outline.lackingToFill, orElse_eq_none] at ho
  case insertEntity | deleteEntity | insertSession | deleteSession | deleteBacking =>
    exact lacking_eq_none.mp ho.1
  all_goals exact lacking_eq_none.mp ho

/-! ### Statements that succeed -/

theorem removeSessions_eq_ok {p : SessionRow → Bool} (h : db.removeSessions p = .ok db') :
    db' = db.withoutSessions p := by
  unfold removeSessions at h
  cases hs : db.sessions with
  | none =>
      simp only [hs, Except.ok.injEq] at h
      rw [← h, withoutSessions, hs, Option.map_none, ← hs]
  | some rows =>
      simp only [hs] at h
      split at h
      · cases h
      · simpa [withoutSessions, hs] using h.symm

theorem removeEntities_eq_ok {p : EntityRow → Bool} (hr : rules.references = true)
    (h : db.removeEntities rules p = .ok db') : db' = db.withoutEntities p := by
  unfold removeEntities at h
  cases he : db.entities with
  | none =>
      simp only [he, Except.ok.injEq] at h
      have hself : (db.sessions.map
          (·.keep fun s => !(p s.owner && (∅ : Table EntityRow id).contains s.owner))) =
          db.sessions := by
        cases db.sessions with
        | none => rfl
        | some t => exact congrArg some (Table.keep_eq_self fun s _ => by simp [Table.contains])
      rw [← h, withoutEntities, he, Option.getD_none, hself, Option.map_none, ← he]
  | some rows =>
      simp only [he, hr, if_true] at h
      split at h
      · cases h
      · rw [removeSessions_eq_ok h, withoutSessions, withoutEntities, he]
        rfl

theorem deleteSessions_eq_ok {p : SessionRow → Bool} {n : Nat}
    (h : db.deleteSessions rules p = .ok (db', n)) :
    db' = db.withoutSessions p ∧ n = db.sessionRows.countP p := by
  obtain ⟨-, h⟩ := understood_eq_ok.mp h
  obtain ⟨rest, hrest, heq⟩ := Except.map_eq_ok.mp h
  obtain ⟨rfl, rfl⟩ := Prod.mk.inj heq
  exact ⟨removeSessions_eq_ok hrest, rfl⟩

theorem deleteEntities_eq_ok {p : EntityRow → Bool} {n : Nat} (hr : rules.references = true)
    (h : db.deleteEntities rules p = .ok (db', n)) :
    db.entities.isSome ∧ db' = db.withoutEntities p ∧ n = db.entityRows.countP p := by
  obtain ⟨hu, h⟩ := understood_eq_ok.mp h
  obtain ⟨rest, hrest, heq⟩ := Except.map_eq_ok.mp h
  obtain ⟨rfl, rfl⟩ := Prod.mk.inj heq
  exact ⟨has_of_refusal_eq_none (n := .entities) rfl hu, removeEntities_eq_ok hr hrest, rfl⟩

/-- A backing record is deleted if it is there, and otherwise nothing is. -/
theorem deleteBacking_eq_ok {k : Kind} {id : Option Cell} {n : Nat}
    (hr : rules.references = true) (h : db.deleteBacking rules k id = .ok (db', n)) :
    (n = 0 ∧ db' = db ∧ ∀ c, id = some c → c ∉ db.backingIds k) ∨
      (n = 1 ∧ ∃ c, id = some c ∧ c ∈ db.backingIds k ∧ db' = db.withoutBacking k c) := by
  rw [Database.deleteBacking, understood_eq_ok] at h
  obtain ⟨hu, h⟩ := h
  have hb : (db.backing k).isSome := by
    rw [← has_ofKind]
    exact has_of_refusal_eq_none rfl hu
  obtain ⟨b, hb⟩ := Option.isSome_iff_exists.mp hb
  have hmem (c : Cell) : c ∈ db.backingIds k ↔ b.ids.contains c = true := mem_backingIds hb
  simp only [hb, Option.getD_some] at h
  split at h
  · rename_i hf
    obtain ⟨rfl, rfl⟩ := Prod.mk.inj (Except.ok.inj h)
    refine .inl ⟨rfl, rfl, fun c hc => ?_⟩
    rw [hmem]
    simpa [hc, Option.filter] using hf
  · rename_i c hf
    obtain ⟨hc, hin⟩ := Option.filter_eq_some_iff.mp hf
    split at h
    · cases h
    · obtain ⟨rest, hrest, heq⟩ := Except.map_eq_ok.mp h
      obtain ⟨rfl, rfl⟩ := Prod.mk.inj heq
      refine .inr ⟨rfl, c, hc, (hmem c).mpr hin, ?_⟩
      rw [removeEntities_eq_ok hr hrest, withoutBacking, hb]
      rfl

theorem insertBacking_eq_ok {k : Kind} {id : Option Cell}
    (h : db.insertBacking rules k id = .ok db') :
    ∃ c b, id = some c ∧ db.backing k = some b ∧ b.faults rules k c = [] ∧
      c ∉ db.backingIds k ∧ db' = db.withBackingRow k c := by
  rw [Database.insertBacking, understood_eq_ok] at h
  obtain ⟨hu, h⟩ := h
  have hb : (db.backing k).isSome := by
    rw [← has_ofKind]
    exact has_of_refusal_eq_none rfl hu
  obtain ⟨b, hb⟩ := Option.isSome_iff_exists.mp hb
  simp only [hb, Option.getD_some] at h
  split at h
  · cases h
  · split at h
    · cases h
    · rename_i c
      split at h
      · cases h
      · rename_i hfaults
        refine ⟨c, b, rfl, hb, hfaults, ?_, ?_⟩
        · rw [mem_backingIds hb, BackingTable.free_of_faults_eq_nil hfaults]
          exact Bool.false_ne_true
        · rw [← Except.ok.inj h, withBackingRow, hb]
          rfl

theorem insertEntity_eq_ok {id kind : Option Cell}
    (h : db.insertEntity rules id kind = .ok db') :
    ∃ r : EntityRow, id = some r.id ∧ kind = some r.kind ∧ db.entities.isSome ∧
      (rules.kinds = true → ∃ k : Kind, r.kind = .ofString k.tag) ∧ r ∉ db.entityRows ∧
      (rules.references = true → db.isBacked r = true) ∧ db' = db.withEntity r := by
  rw [Database.insertEntity, understood_eq_ok] at h
  obtain ⟨hu, h⟩ := h
  have he : db.entities.isSome := has_of_refusal_eq_none (n := .entities) rfl hu
  obtain ⟨t, ht⟩ := Option.isSome_iff_exists.mp he
  simp only [ht, Option.getD_some] at h
  split at h
  · cases h
  · split at h
    · cases h
    · cases h
    · rename_i i kind
      split at h
      · cases h
      · rename_i hkind
        split at h
        · cases h
        · rename_i hfree
          split at h
          · cases h
          · rename_i hback
            refine ⟨⟨i, kind⟩, rfl, rfl, he, fun hk => ?_, ?_, fun hr => ?_, ?_⟩
            · simp only [hk, Bool.true_and, Bool.not_eq_true', Bool.not_eq_false,
                List.any_eq_true, beq_iff_eq] at hkind
              obtain ⟨k, -, hk⟩ := hkind
              exact ⟨k, hk⟩
            · simpa [entityRows, ht, Table.contains_iff] using hfree
            · simpa [hr] using hback
            · rw [← Except.ok.inj h, withEntity, ht]
              rfl

theorem insertSession_eq_ok {id targetId targetKind name createdAt : Option Cell}
    (h : db.insertSession rules id targetId targetKind name createdAt = .ok db') :
    ∃ s : SessionRow, id = some s.id ∧ targetId = some s.targetId ∧
      targetKind = some s.targetKind ∧ name = s.name ∧ createdAt = some s.createdAt ∧
      db.sessions.isSome ∧ (∀ x ∈ db.sessionRows, x.id ≠ s.id) ∧
      (rules.references = true → s.owner ∈ db.entityRows) ∧ db' = db.withSession s := by
  rw [Database.insertSession, understood_eq_ok] at h
  obtain ⟨hu, h⟩ := h
  have hs : db.sessions.isSome := has_of_refusal_eq_none (n := .sessions) rfl hu
  obtain ⟨t, ht⟩ := Option.isSome_iff_exists.mp hs
  simp only [ht, Option.getD_some] at h
  split at h
  · cases h
  · split at h
    · cases h
    · cases h
    · cases h
    · cases h
    · rename_i i targetId targetKind createdAt
      split at h
      · cases h
      · rename_i hfree
        split at h
        · cases h
        · rename_i howner
          refine ⟨⟨i, targetId, targetKind, name, createdAt⟩, rfl, rfl, rfl, rfl, rfl, hs, ?_,
            fun hr => ?_, ?_⟩
          · simpa [sessionRows, ht, Table.contains_eq_false_iff] using hfree
          · rw [← hasEntityRow_iff]
            simpa [hr] using howner
          · rw [← Except.ok.inj h, withSession, ht]
            rfl

end OwnershipRegistry.Database
