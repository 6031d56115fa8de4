import OwnershipRegistry.File.Visitor
import OwnershipRegistry.Proofs.File.Regular

/-!
The shared file through visits and openings. What the visitor does in a
transaction never comes to the file; without one its change of rows is a step
like any other.
-/

namespace OwnershipRegistry

namespace SharedFile

variable {f : SharedFile} {db : Database} {checked : Bool}

@[simp] theorem database_beginVisit (f : SharedFile) (h : Hold) :
    (f.beginVisit h).1.database = f.database := by
  unfold beginVisit
  split
  · split_ifs
    · rfl
    · split <;> rfl
  · simp only
    split <;> simp

@[simp] theorem database_endVisit (f : SharedFile) :
    f.endVisit.1.database = f.database := by
  unfold endVisit
  split <;> rfl

/-- A change by the visitor leaves the file or is made to it. -/
theorem database_write (f : SharedFile) (rules : Rules) (db : Database) (c : ForeignChange) :
    (f.write rules db c).1.database = f.database ∨
      f.visit = none ∧ ∃ db' n, db.change rules c = .ok (db', n) ∧
        (f.write rules db c).1.database = some db' := by
  unfold write
  split
  · rename_i hvisit
    cases hchange : db.change rules c with
    | error fault => exact .inl rfl
    | ok changed =>
        obtain ⟨db', n⟩ := changed
        exact .inr ⟨hvisit, db', n, rfl, database_put f db'⟩
  · split
    · exact .inl rfl
    · split <;> exact .inl rfl

/-- A change of rows under rules that keep references takes the file one step
further. -/
theorem change_database_altered {rules : Rules} {c : ForeignChange}
    (hr : rules.references = true) (hk : checked = true → rules.kinds = true)
    (hc : c.isStructural = false) (hf : f.database = some db) :
    ∃ db', (f.change rules c).1.database = some db' ∧ Database.Altered checked db db' := by
  have hkeeps : (f.rulesFor rules c).references = true := by
    have hdrop : c.dropsTable = false := by
      cases c <;> first | rfl | cases hc
    simp [rulesFor, hr, hdrop]
  have hsame : f.database = some db → ∃ db', f.database = some db' ∧
      Database.Altered checked db db' := fun hf => ⟨db, hf, .same⟩
  unfold change
  split
  · exact hsame hf
  · rw [database_look]
    exact hsame hf
  · rename_i seen s hseen hs
    simp only
    split
    · exact hsame hf
    · rw [database_look]
      exact hsame hf
    · split_ifs
      · rw [database_look]
        exact hsame hf
      · simp only [database_look]
        rcases database_write f (f.rulesFor rules c) seen c with
          hold | ⟨hvisit, db', n, hchange, hnew⟩
        · rw [hold]
          exact hsame hf
        · have hdb : seen = db := by
            rw [SharedFile.seen, hvisit] at hseen
            exact Option.some.inj (hseen.symm.trans hf)
          subst hdb
          exact ⟨db', hnew, Database.change_altered hkeeps hk hc hchange⟩

theorem setWrittenAhead_eq_ok {f' : SharedFile} (h : f.setWrittenAhead = .ok f') :
    f'.database = f.database ∧ f'.visit = f.visit := by
  unfold setWrittenAhead at h
  split at h
  · cases h
  · split_ifs at h
    · obtain rfl := Except.ok.inj h
      exact ⟨rfl, rfl⟩
    · obtain rfl := Except.ok.inj h
      exact ⟨rfl, rfl⟩

/-- Opening a store on the file takes the file some steps further, and finds the
tables that it needs if it succeeds. -/
theorem openStore_database (f : SharedFile) (now : Instant) (c : StoreConfig)
    (hf : f.database = some db) (hdb : db.Regular checked) :
    ∃ db', (f.openStore now c).store.database = some db' ∧ Database.Becomes checked db db' ∧
      ((f.openStore now c).answer.isOk = true →
        db'.has .entities = true ∧ db'.has .sessions = true ∧
          (c.provisionBacking = true → ∀ k, db'.has (.ofKind k) = true)) := by
  unfold openStore
  simp only
  split
  · exact ⟨db, hf, .refl, fun h => by cases h⟩
  · rename_i f' hjournal
    have hsame : f'.database = some db := by
      split_ifs at hjournal
      · rw [(setWrittenAhead_eq_ok hjournal).1, hf]
      · rw [← Except.ok.inj hjournal, hf]
    rw [hsame]
    simp only [Outcome.store_after, Outcome.answer_after, database_put]
    refine ⟨_, rfl, Database.prepare_becomes f'.access now c db, fun hok => ?_⟩
    cases hanswer : (db.prepare f'.access now c).answer with
    | error e =>
        rw [hanswer] at hok
        cases hok
    | ok ids => exact Database.prepare_has hdb hanswer

end SharedFile

end OwnershipRegistry
