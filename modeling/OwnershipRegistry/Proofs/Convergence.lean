import OwnershipRegistry.File.Foreign
import OwnershipRegistry.Proofs.File.Removal
import OwnershipRegistry.Proofs.Memory.Removal

/-!
Removals converge. In memory and in the file all ways to delete what there is of
a target lead to the same: its backing record, its entity and its sessions have
gone, the reports have named each of them once, and nothing is left to remove.
The deletion of the record by another program leads there too.
-/

namespace OwnershipRegistry

namespace Database

/-- Wherever another program that keeps references deletes the backing record of
a target, it leaves a certain file, and is told whether the record was there. -/
def ClearedOutside (db : Database) (t : Target) (gone : Database) : Prop :=
  ∀ rules table, rules.references = true → Kind.ofTable table = .ok t.kind →
    db.change rules (.deleteBacking table (some (.ofString t.id))) =
      .ok (gone, some (db.estate t).backed.toNat)

/-- All deletions of a target in the file converge: those by stores that no lock
is in the way of, and those by another program, whatever removals come first. -/
structure DeletionsConverge (db : Database) (t : Target) : Prop where
  /-- The identifiers that reports may name are those of the sessions. -/
  sessions : (db.estate t).sessions.map (fun id => Cell.ofString id.text) =
    (db.sessionRows.filter fun s => s.owner == .ofTarget t).map SessionRow.id
  stores : Converges FileStore.Caller.run FileStore.Caller.Unhindered t (db.estate t) db
    (db.left t .deletion)
  others : ∀ history : List (FileStore.Caller × Removal), (∀ c ∈ history, c.1.Unhindered) →
    (removals FileStore.Caller.run t db history).2.ClearedOutside t (db.left t .deletion)

theorem Whole.deletionsConverge {db : Database} {t : Target} (hwhole : db.Whole)
    (h : db.Deletable t) : db.DeletionsConverge t where
  sessions := h.sessions_eq
  stores := (FileStore.removes t).converges ⟨hwhole, h⟩
  others history hall := by
    obtain ⟨-, ⟨hwhole', h'⟩, habsorbed⟩ :=
      (FileStore.removes t).removals_balance ⟨hwhole, h⟩ hall
    rw [← habsorbed]
    exact fun rules table hr htable => change_deleteBacking hwhole' h' hr htable

end Database

/-- In memory all removals of a target converge. In a file where the chain holds
they do, and so does another program's deletion, wherever a deletion succeeds:
if rows can be written and what belongs to the target can be deleted. A removal
that fails leaves the file as it was. -/
theorem deletions_converge :
    (∀ (s : MemoryStore) t, s.Sound →
      Converges MemoryStore.run (fun _ => True) t (s.estate t) s (s.left t .deletion)) ∧
    (∀ (db : Database) t, db.Whole → db.Deletable t → db.DeletionsConverge t) ∧
    ∀ (db : Database) t (c : FileStore.Caller), db.Whole → c.access.reads = true →
      ((∃ x, (c.run db (.deleteBacking t)).answer = .ok x) ↔
        c.access.Writes ∧ db.Deletable t) ∧
      ∀ (r : Removal) e, (c.run db (r.operation t)).answer = .error e →
        (c.run db (r.operation t)).store = db := by
  refine ⟨fun s t hs => (MemoryStore.removes t).converges hs,
    fun db t hwhole h => hwhole.deletionsConverge h,
    fun db t c hwhole hr => ⟨?_, fun r e he => ?_⟩⟩
  · exact FileStore.Caller.exists_deletion hwhole hr
  · exact FileStore.runKnowing_store_of_error he

/-- A store in memory with one session. -/
def MemoryStore.oneSession : MemoryStore :=
  MemoryStore.empty.after [(.epoch, .insertBacking ⟨.bot, "a"⟩), (.epoch, .register ⟨.bot, "a"⟩),
    (.epoch, .createSession { id := ⟨"s"⟩, target := ⟨.bot, "a"⟩ })]

/-- A file with one session, whose identifier is some cell. -/
def Database.oneSession (id : Cell) : Database where
  bots := some (.holding (.ofList [.ofString "a"]))
  users := some {}
  entities := some (.ofList [.ofTarget ⟨.bot, "a"⟩])
  sessions := some (.ofList
    [⟨id, .ofString "a", .ofString "bot", none, .ofString "2026-01-01T00:00:00Z"⟩])

theorem Database.oneSession_whole (id : Cell) : (oneSession id).Whole where
  backed r hr := by
    obtain rfl := List.mem_singleton.mp hr
    rfl
  owned s hs := by
    obtain rfl := List.mem_singleton.mp hs
    exact List.mem_singleton.mpr rfl

theorem Database.oneSession_deletable (id : String) :
    (oneSession (.ofString id)).Deletable ⟨.bot, "a"⟩ where
  backing k := by cases k <;> rfl
  entities := rfl
  sessions := rfl
  legible s hs _ := by
    obtain rfl := List.mem_singleton.mp hs
    exact ⟨id, rfl⟩
  record _ := rfl
  entity _ := rfl
  held _ _ _ := rfl

theorem deletions_converge_oneSession :
    (∃ reports : List CascadeReport,
      removals MemoryStore.run ⟨.bot, "a"⟩ .oneSession
          [(Instant.epoch, .notice), (.epoch, .deletion)] =
        (reports.map fun r => .ok (.report r), MemoryStore.oneSession.left ⟨.bot, "a"⟩ .deletion) ∧
      reports.flatMap (·.sessionsRemoved) = [⟨"s"⟩]) ∧
    (Database.oneSession (.ofString "s")).change {}
        (.deleteBacking "bots" (some (.ofString "a"))) =
      .ok ((Database.oneSession (.ofString "s")).left ⟨.bot, "a"⟩ .deletion, some 1) ∧
    (∃ x, (FileStore.Caller.run (Database.oneSession (.ofString "s"))
      ⟨Database.empty.outline, .free, .epoch⟩ (.deleteBacking ⟨.bot, "a"⟩)).answer = .ok x) ∧
    (FileStore.Caller.run (Database.oneSession (.blob [0x73]))
      ⟨Database.empty.outline, .free, .epoch⟩ (.deleteBacking ⟨.bot, "a"⟩)).store =
        Database.oneSession (.blob [0x73]) := by
  obtain ⟨hmemory, hfile, hsucceeds⟩ := deletions_converge
  have hwhole := Database.oneSession_whole (.ofString "s")
  have hdeletable := Database.oneSession_deletable "s"
  refine ⟨?_, ?_, ?_, ?_⟩
  · have hsound : MemoryStore.oneSession.Sound := MemoryStore.empty_sound.after _
    obtain ⟨reports, hreports, hbalance⟩ := (hmemory .oneSession ⟨.bot, "a"⟩ hsound).leaves
      [(Instant.epoch, .notice), (.epoch, .deletion)] (fun _ _ => trivial)
      ⟨(.epoch, .deletion), by simp, rfl⟩
    refine ⟨reports, hreports, ?_⟩
    have hsessions := hbalance.sessions
    rwa [Estate.bare, List.append_nil] at hsessions
  · exact (hfile _ ⟨.bot, "a"⟩ hwhole hdeletable).others [] (by simp) {} "bots" rfl
      (Kind.ofTable_ofKind .bot)
  · exact (hsucceeds _ ⟨.bot, "a"⟩ ⟨Database.empty.outline, .free, .epoch⟩ hwhole rfl).1.mpr
      ⟨Access.free_writes, hdeletable⟩
  · exact (hsucceeds _ ⟨.bot, "a"⟩ ⟨Database.empty.outline, .free, .epoch⟩
      (Database.oneSession_whole (.blob [0x73])) rfl).2 .deletion (.storage (.notText 0 "id")) rfl

/-- A session whose identifier is no text stands in the way of every removal, but
not of another program. -/
theorem removals_untypedIdentifier :
    (Database.oneSession (.blob [0x73])).Whole ∧
      (∀ r : Removal,
        (FileStore.run .free .epoch (Database.oneSession (.blob [0x73]))
          (r.operation ⟨.bot, "a"⟩)).answer = .error (.storage (.notText 0 "id")) ∧
        (FileStore.run .free .epoch (Database.oneSession (.blob [0x73]))
          (r.operation ⟨.bot, "a"⟩)).store = Database.oneSession (.blob [0x73])) ∧
      ∃ gone : Database, (Database.oneSession (.blob [0x73])).change {}
          (.deleteBacking "bots" (some (.ofString "a"))) = .ok (gone, some 1) ∧
        gone.sessionRows = [] ∧ (Database.oneSession (.blob [0x73])).sessionRows ≠ [] := by
  refine ⟨Database.oneSession_whole _, fun r => ?_,
    (Database.oneSession (.blob [0x73])).left ⟨.bot, "a"⟩ .deletion, ?_, ?_, ?_⟩
  · cases r <;> exact ⟨rfl, rfl⟩
  · have htable : Kind.ofTable "bots" = .ok .bot := Kind.ofTable_ofKind .bot
    rw [Database.change, htable]
    rfl
  · rfl
  · exact List.cons_ne_nil _ _

end OwnershipRegistry
