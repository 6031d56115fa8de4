import OwnershipRegistry.File.Recall
import OwnershipRegistry.Proofs.File.Statements

/-!
Operations by what is remembered. As long as a store remembers no unrelated
table under one of the registry's names, every fault that it would tell by
memory is looked at again first; so while the file can be read it remembers in
vain, and runs its operations on the file as it is.
-/

namespace OwnershipRegistry

namespace Outline

/-- No unrelated table has the name of one of the registry's. -/
def Plain (o : Outline) : Prop := ∀ n, o.standing n ≠ .unrelated

variable {o : Outline} {n child parent : TableName} {x : Obstacle}

theorem rechecked_of_lacking {f : Fault} (h : o.lacking n f = some x) : x.rechecked = true := by
  rw [lacking] at h
  split at h
  · cases h
  · rw [← Option.some.inj h]
  · rw [← Option.some.inj h]

theorem rechecked_of_firstLacking {needed : List (TableName × String)}
    (h : o.firstLacking needed = some x) : x.rechecked = true := by
  obtain ⟨n, -, hn⟩ := List.exists_of_findSome?_eq_some h
  exact rechecked_of_lacking hn

theorem rechecked_of_brokenReference (hp : o.standing parent ≠ .unrelated)
    (h : o.brokenReference child parent = some x) : x.rechecked = true := by
  rw [brokenReference] at h
  split at h
  · cases h
  · rw [← Option.some.inj h]
  · rename_i hs
    exact absurd hs hp

theorem rechecked_of_insertEntity (hk : ∀ k, o.standing (.ofKind k) ≠ .unrelated) {rules : Rules}
    (h : o.obstacle rules .insertEntity = some x) : x.rechecked = true := by
  rcases Database.orElse_eq_some h with h | h
  · exact rechecked_of_lacking h
  · rcases Database.orElse_eq_some (Option.ite_none_right_eq_some.mp h).2 with h | h
    · exact rechecked_of_brokenReference (hk .user) h
    · exact rechecked_of_brokenReference (hk .bot) h

/-- The first statement of an operation meets no obstacle that is told without
another look. -/
theorem Plain.rechecked_of_firstStatement (ho : o.Plain) {rules : Rules} {op : Operation}
    (h : o.obstacle rules op.firstStatement = some x) : x.rechecked = true := by
  cases op with
  | insertBacking t | backingExists t | backingDeleted t | deleteBacking t | lookup t
  | listEntities | getSession id | listSessions t => exact rechecked_of_lacking h
  | register t | ensureRegistered t =>
      exact rechecked_of_insertEntity (fun k => ho (.ofKind k)) h
  | createSession new | deleteSession id | deleteAllSessions t =>
      rcases Database.orElse_eq_some h with h | h
      · exact rechecked_of_lacking h
      · exact rechecked_of_brokenReference (ho .entities) (Option.ite_none_right_eq_some.mp h).2
  | verify => exact rechecked_of_firstLacking h

theorem Plain.recalled_eq_none (ho : o.Plain) (rules : Rules) (op : Operation) :
    o.recalled true rules op.firstStatement = none := by
  rw [recalled, Option.bind_eq_none_iff]
  intro x hx
  rw [ho.rechecked_of_firstStatement hx]
  rfl

end Outline

namespace FileStore

/-- What is remembered makes no difference if it tells nothing of the first
statement. -/
theorem runKnowing_eq_run_of_recalled {known : Outline} {a : Access} {op : Operation}
    (ha : a.reads = true) (h : known.recalled true {} op.firstStatement = none) (now : Instant)
    (db : Database) : (runKnowing known a now db op).1 = run a now db op := by
  simp only [runKnowing, ha, h, ite_self]

theorem runKnowing_eq_run {known : Outline} {a : Access} (ho : known.Plain)
    (ha : a.reads = true) (now : Instant) (db : Database) (op : Operation) :
    (runKnowing known a now db op).1 = run a now db op :=
  runKnowing_eq_run_of_recalled ha (ho.recalled_eq_none {} op) now db

/-- An operation leaves what a store remembers, or makes it look at the file
because it knows nothing against the first statement. -/
theorem runKnowing_outline (known : Outline) (a : Access) (now : Instant) (db : Database)
    (op : Operation) :
    (runKnowing known a now db op).2 = known ∨
      (runKnowing known a now db op).2 = db.outline ∧
        known.recalled true {} op.firstStatement = none := by
  unfold runKnowing
  simp only
  split
  · exact .inl rfl
  · rename_i hrecall
    simp only
    split_ifs with hlooked
    · obtain ⟨hstarts, hreads⟩ := Bool.and_eq_true_iff.mp hlooked
      rw [if_pos hstarts, hreads] at hrecall
      exact .inr ⟨rfl, hrecall⟩
    · exact .inl rfl

end FileStore

end OwnershipRegistry
