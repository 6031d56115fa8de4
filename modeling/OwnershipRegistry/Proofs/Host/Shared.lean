import OwnershipRegistry.Proofs.File.Opening
import OwnershipRegistry.Proofs.Host.Reached

/-!
What becomes of a host when a store is opened, by the place where it is opened.
Only an opening at the shared file touches the file, and none of them takes a row
away: the tables that were there before, in the file and under common names, keep
all their rows, and no other store is touched.
-/

namespace OwnershipRegistry.Host

variable {h h' : Host} {now : Instant} {n m : Nat} {c : StoreConfig}

theorem handle?_close (h : Host) (n m : Nat) :
    (h.close n).1.handle? m = if m = n then none else h.handle? m := by
  have hlookup : (h.close n).1.handle? m = if m != n then h.handle? m else none :=
    lookup_filter (fun k => k != n) h.handles m
  rw [hlookup]
  by_cases hm : m = n <;> simp [hm]

theorem handle?_setHandle_of_ne (h : Host) (store : Handle) (hm : m ≠ n) :
    (h.setHandle n store).handle? m = h.handle? m := by
  have hne : (m == n) = false := beq_eq_false_iff_ne.mpr hm
  rw [handle?, setHandle, List.lookup_cons, hne]
  have hlookup := lookup_filter (fun k => k != n) h.handles m
  rw [if_pos (bne_iff_ne.mpr hm)] at hlookup
  exact hlookup

/-- What can come of opening a store under a number. -/
inductive Opened (now : Instant) (n : Nat) (c : StoreConfig) (h : Host) : Host → Prop
  /-- The store that had the number is closed and nothing is opened. -/
  | refused : Opened now n c h (h.close n).1
  | sealed (db : Database) : Opened now n c h ((h.close n).1.setHandle n (.sealed db))
  | common (name : CommonName) (a : Access) :
      Opened now n c h (((h.close n).1.setCommon name
        ((((h.close n).1.commons.lookup name).getD .empty).openStore a now c
          (some memoryJournal)).store).setHandle n (.common name a))
  /-- Opening at the shared file fails, and may have gone some way. -/
  | stopped (e : RegistryError) (failed : (h.file.openStore now c).answer = .error e) :
      Opened now n c h { (h.close n).1 with file := (h.file.openStore now c).store }
  | shared (ms : List Migration) (opened : (h.file.openStore now c).answer = .ok ms) :
      Opened now n c h (({ (h.close n).1 with file := (h.file.openStore now c).store } :
        Host).setHandle n
          (.shared ((h.file.openStore now c).store.database.getD .empty).outline))

theorem openSealed_opened (h : Host) (now : Instant) (n : Nat) (c : StoreConfig)
    (journal : Option String) (changes : Bool) :
    Opened now n c h (openAt.ofSealed (h.close n).1 now n c journal changes).store := by
  unfold openAt.ofSealed
  simp only
  split
  · exact .sealed _
  · exact .refused

theorem openAt_opened (h : Host) (now : Instant) (n : Nat) (c : StoreConfig)
    (place : Option Place) : Opened now n c h ((h.close n).1.openAt now n c place).store := by
  match place with
  | none => exact openSealed_opened h now n c none true
  | some (.sealed journal changes) => exact openSealed_opened h now n c (some journal) changes
  | some (.common name changes) =>
      simp only [openAt]
      split
      · exact .common name _
      · exact .refused
  | some .shared =>
      have hfile : (h.close n).1.file = h.file := rfl
      simp only [openAt, hfile]
      cases hanswer : (h.file.openStore now c).answer with
      | error e => exact .stopped e hanswer
      | ok ms => exact .shared ms hanswer

theorem openStore_opened (h : Host) (now : Instant) (n : Nat) (c : StoreConfig) :
    Opened now n c h (h.openStore now n c).1 := by
  unfold openStore
  simp only
  split
  · exact .refused
  · split_ifs
    · exact .refused
    · exact openAt_opened h now n c _

theorem Opened.file_eq (ho : Opened now n c h h') :
    h'.file = h.file ∨ h'.file = (h.file.openStore now c).store := by
  cases ho with
  | refused | sealed own | common name a => exact .inl rfl
  | stopped e failed => exact .inr rfl
  | shared ms opened => exact .inr rfl

/-- All rows are kept, in the file and under common names, and no store but that
of a number is touched. -/
structure KeepsRows (n : Nat) (h h' : Host) : Prop where
  file : ∀ db, h.file.database = some db → ∃ db', h'.file.database = some db' ∧ db.Kept db'
  commons : ∀ name db, h.commons.lookup name = some db →
    ∃ db', h'.commons.lookup name = some db' ∧ db.Kept db'
  handles : ∀ m, m ≠ n → h'.handle? m = h.handle? m

/-- Opening a store keeps all rows, whether it succeeds or not; only that the
number is free for it, as if its store had been closed. -/
theorem Opened.keepsRows (ho : Opened now n c h h') : KeepsRows n (h.close n).1 h' := by
  have hkept : ∀ db, h.file.database = some db →
      ∃ db', (h.file.openStore now c).store.database = some db' ∧ db.Kept db' :=
    fun db hdb => h.file.kept_openStore now c hdb
  have hfile : ∀ db, h.file.database = some db →
      ∃ db', h.file.database = some db' ∧ db.Kept db' := fun db hdb => ⟨db, hdb, .refl db⟩
  have hcommons : ∀ name db, (h.close n).1.commons.lookup name = some db →
      ∃ db', (h.close n).1.commons.lookup name = some db' ∧ db.Kept db' :=
    fun _ db hdb => ⟨db, hdb, .refl db⟩
  cases ho with
  | refused => exact ⟨hfile, hcommons, fun _ _ => rfl⟩
  | sealed own => exact ⟨hfile, hcommons, fun m hm => handle?_setHandle_of_ne _ _ hm⟩
  | common name a =>
      refine ⟨hfile, fun name' db hdb => ?_, fun m hm => handle?_setHandle_of_ne _ _ hm⟩
      show ∃ db', ((h.close n).1.setCommon name _).commons.lookup name' = some db' ∧ _
      rw [lookup_setCommon]
      split_ifs with hname
      · subst hname
        rw [hdb]
        exact ⟨_, rfl, Database.kept_openStore a now c _ db⟩
      · exact ⟨db, hdb, .refl db⟩
  | stopped e failed => exact ⟨hkept, hcommons, fun _ _ => rfl⟩
  | shared ms opened => exact ⟨hkept, hcommons, fun m hm => handle?_setHandle_of_ne _ _ hm⟩

end OwnershipRegistry.Host
