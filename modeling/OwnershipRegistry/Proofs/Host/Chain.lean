import OwnershipRegistry.Proofs.File.Audit
import OwnershipRegistry.Proofs.Host.Reached

/-!
The ownership chain is never broken by a store. Whatever the tables hold, no
operation leaves a row hanging on nothing that did not before; and on every host
that comes about from a fresh one the chain holds everywhere, so that no audit
finds anything.
-/

namespace OwnershipRegistry

/-- Whatever hangs on nothing in the second file does so in the first. -/
def Database.NoWorse (db db' : Database) : Prop :=
  (∀ r, db'.Unbacked r → db.Unbacked r) ∧ ∀ s, db'.Unowned s → db.Unowned s

theorem Database.Altered.noWorse {db db' : Database} (h : Altered true db db') :
    db.NoWorse db' :=
  ⟨fun _ => h.unbacked, fun _ => h.unowned⟩

namespace Host

variable {h : Host} {checked : Bool}

/-- The chain holds in what an open store stands on. Entities of a kind that is
none of the kinds are there only if the visitor set the list of kinds aside. -/
def Chained (checked : Bool) (h : Host) : Handle → Prop
  | .memory s =>
    (∀ t ∈ s.entities.rows, s.hasBacking t = true) ∧
      ∀ x ∈ s.sessions.rows, s.hasEntity x.target = true
  | handle => ∀ db, h.tables? handle = some db →
    db.Whole ∧ (checked = true → ∀ r ∈ db.entityRows, db.Backed r)

theorem Regular.chained (hh : h.Regular checked) {handle : Handle}
    (hfit : Fit checked h handle) : h.Chained checked handle := by
  have htables : ∀ db, h.tables? handle = some db →
      db.Whole ∧ (checked = true → ∀ r ∈ db.entityRows, db.Backed r) := by
    intro db hdb
    obtain ⟨hregular, -⟩ := hh.tables_regular hfit hdb
    refine ⟨hregular.toWhole, ?_⟩
    rintro rfl
    exact fun r hr => hregular.backed_of_mem hr
  cases handle with
  | memory s =>
      have hs : s.Sound := hfit
      exact ⟨fun t ht => MemoryStore.hasBacking_iff.mpr (hs.backed t ht),
        fun x hx => MemoryStore.hasEntity_iff.mpr (hs.owned x hx)⟩
  | sealed db => exact htables
  | common name a => exact htables
  | shared known => exact htables

theorem Regular.verify (hh : h.Regular checked) {n : Nat} {handle : Handle}
    (hn : h.handle? n = some handle) (now : Instant)
    (hreads : (h.accessOf handle).reads = true)
    (hbacking : ∀ db, h.tables? handle = some db → ∀ k, db.has (.ofKind k) = true) :
    ∃ o, h.run now n .verify = some o ∧ o.answer = .ok (.violations []) := by
  obtain ⟨s, rfl, hs⟩ | ⟨db, hdb⟩ := (hh.fit hn).memory_or_tables
  · obtain ⟨o, ho, hanswer, -⟩ := run_memory hn now .verify
    refine ⟨o, ho, hanswer.trans ?_⟩
    rw [MemoryStore.run, hs.violations_eq_nil]
    rfl
  · obtain ⟨hregular, he, hs⟩ := hh.tables_regular (hh.fit hn) hdb
    obtain ⟨o, ho, hanswer, -⟩ := hh.run_tables hn hdb hreads now .verify
    refine ⟨o, ho, hanswer.trans ?_⟩
    exact FileStore.run_verify_of_whole now hregular.toWhole hreads he hs (hbacking db hdb)

/-- No operation adds a row that hangs on nothing, whatever the tables hold and
whoever holds a lock; a store in memory never has one; and wherever stores and
visitors have come to from a fresh host, the chain holds and the audit finds
nothing. -/
theorem chain_never_broken (checked : Bool) :
    (∀ (db : Database) known a now op, db.NoWorse (FileStore.run a now db op).store ∧
      db.NoWorse (FileStore.runKnowing known a now db op).1.store) ∧
    (∀ history now op,
      ∀ v ∈ ((MemoryStore.empty.after history).run now op).store.violations,
        v ∈ (MemoryStore.empty.after history).violations) ∧
    ∀ h, Reached checked h → ∀ n handle, h.handle? n = some handle →
      h.Chained checked handle ∧
      ∀ now, (h.accessOf handle).reads = true →
        (∀ db, h.tables? handle = some db → ∀ k, db.has (.ofKind k) = true) →
        ∃ o, h.run now n .verify = some o ∧ o.answer = .ok (.violations []) := by
  refine ⟨fun db known a now op => ⟨?_, ?_⟩, fun history now op v hv => ?_,
    fun h hr n handle hn => ⟨?_, fun now hreads hbacking => ?_⟩⟩
  · exact (FileStore.run_altered a now db op).noWorse
  · exact (FileStore.runKnowing_altered known a now db op).noWorse
  · have hsound := (MemoryStore.empty_sound.after history).run now op
    rw [hsound.violations_eq_nil] at hv
    cases hv
  · exact hr.regular.chained (hr.regular.fit hn)
  · exact hr.regular.verify hn now hreads hbacking

/-- A store that has just been opened on a new file. -/
def openedAnew : Host := ((fresh "registry.db").openStore .epoch 1 (.atPath "registry.db")).1

theorem chain_never_broken_openedAnew :
    (∃ known, openedAnew.handle? 1 = some (.shared known) ∧
      openedAnew.Chained true (.shared known)) ∧
    ∃ o, openedAnew.run .epoch 1 .verify = some o ∧ o.answer = .ok (.violations []) := by
  have hreached : Reached true openedAnew := .step (.fresh "registry.db") (.opened .epoch 1 _)
  have hhandle : openedAnew.handle? 1 =
      some (.shared ⟨.declared, .declared, .declared, .declared, .declared⟩) := rfl
  obtain ⟨hchained, hverify⟩ := (chain_never_broken true).2.2 openedAnew hreached 1 _ hhandle
  refine ⟨⟨_, hhandle, hchained⟩, hverify .epoch rfl ?_⟩
  intro db hdb k
  obtain rfl := Option.some.inj hdb
  cases k <;> rfl

end Host

end OwnershipRegistry
