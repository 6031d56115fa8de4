import OwnershipRegistry.Proofs.File.Ready
import OwnershipRegistry.Proofs.Memory.Sound

/-!
The image of a store in memory on the file. Identifiers, targets and sessions
stand in the file in the order in which they stand in memory, so each table of
the image is the image of a table, and what a statement makes of the image is the
image of what the same change makes in memory.
-/

namespace OwnershipRegistry

theorem compare_ofString (a b : String) :
    compare (Cell.ofString a) (Cell.ofString b) = compare (octets a) (octets b) := rfl

theorem compare_ofTarget (a b : Target) :
    compare (EntityRow.ofTarget a) (EntityRow.ofTarget b) = compare a b := by
  obtain ⟨k, id⟩ := a
  obtain ⟨k', id'⟩ := b
  cases k <;> cases k' <;> rfl

theorem compare_ofSession (x y : Session) :
    compare (SessionRow.ofSession x).id (SessionRow.ofSession y).id = compare x.key y.key := rfl

theorem ofTarget_inj {t t' : Target} :
    EntityRow.ofTarget t = EntityRow.ofTarget t' ↔ t = t' := by
  have hfile : compare (EntityRow.ofTarget t) (.ofTarget t') = .eq ↔
      EntityRow.ofTarget t = .ofTarget t' := Std.LawfulEqCmp.compare_eq_iff_eq
  rw [← hfile, compare_ofTarget, Std.LawfulEqCmp.compare_eq_iff_eq]

theorem ofTarget_beq (t t' : Target) : (EntityRow.ofTarget t == .ofTarget t') = (t == t') := by
  rw [Bool.eq_iff_iff, beq_iff_eq, beq_iff_eq, ofTarget_inj]

theorem owner_ofSession (x : Session) : (SessionRow.ofSession x).owner = .ofTarget x.target := rfl

theorem owner_beq_ofTarget (x : Session) (t : Target) :
    ((SessionRow.ofSession x).owner == .ofTarget t) = (x.target == t) :=
  ofTarget_beq x.target t

namespace MemoryStore

/-- The file that holds what a store in memory holds, beside a ledger and the indexes
that migrations bring. -/
def onFile (s : MemoryStore) (l : Option Ledger) : Database where
  bots := some (.holding (s.bots.map Cell.ofString compare_ofString))
  users := some (.holding (s.users.map Cell.ofString compare_ofString))
  entities := some (s.entities.map EntityRow.ofTarget compare_ofTarget)
  sessions := some (s.sessions.map SessionRow.ofSession compare_ofSession)
  ledger := l
  indexes := Migration.all.flatMap Migration.indexes

variable {s : MemoryStore} {l : Option Ledger} {t : Target}

theorem backing_onFile (k : Kind) :
    (s.onFile l).backing k =
      some (.holding ((s.backing k).map Cell.ofString compare_ofString)) := by
  cases k <;> rfl

theorem setBacking_onFile (k : Kind) (ids : Table String octets) :
    (s.onFile l).setBacking k (some (.holding (ids.map Cell.ofString compare_ofString))) =
      (s.setBacking k ids).onFile l := by
  cases k <;> rfl

theorem onFile_ready (s : MemoryStore) (l : Option Ledger) : (s.onFile l).Ready where
  backing k := by
    rw [Database.has_ofKind, backing_onFile]
    rfl
  entities := rfl
  sessions := rfl
  unblocked := rfl
  provisioned k b hb := by
    rw [backing_onFile] at hb
    rw [← Option.some.inj hb]
    exact BackingTable.holding_provisioned _

/-! ### Looking rows up -/

theorem hasBackingRow_onFile :
    (s.onFile l).hasBackingRow t.kind (.ofString t.id) = s.hasBacking t := by
  rw [Database.hasBackingRow, backing_onFile, Option.any_some, BackingTable.ids_holding, hasBacking]
  exact Table.contains_map (f := Cell.ofString) (h := compare_ofString)
    (fun r => compare_ofString r t.id) (s.backing t.kind)

theorem contains_entities_onFile :
    ((s.onFile l).entities.getD ∅).contains (.ofTarget t) = s.hasEntity t :=
  Table.contains_map (f := EntityRow.ofTarget) (h := compare_ofTarget)
    (fun r => compare_ofTarget r t) s.entities

theorem hasEntityRow_onFile : (s.onFile l).hasEntityRow (.ofTarget t) = s.hasEntity t :=
  contains_entities_onFile (l := l)

theorem contains_sessions_onFile {id : SessionId} :
    ((s.onFile l).sessions.getD ∅).contains (.ofString id.text) = s.sessions.contains id.key :=
  Table.contains_map (h := compare_ofSession) (fun x => compare_ofString x.id.text id.text)
    s.sessions

theorem find?_sessions_onFile {id : SessionId} :
    ((s.onFile l).sessions.getD ∅).find? (.ofString id.text) =
      (s.sessions.find? id.key).map SessionRow.ofSession :=
  Table.find?_map (h := compare_ofSession) (fun x => compare_ofString x.id.text id.text)
    s.sessions

/-! ### Changing rows -/

theorem withBackingRow_onFile :
    (s.onFile l).withBackingRow t.kind (.ofString t.id) =
      (s.setBacking t.kind ((s.backing t.kind).insert t.id)).onFile l := by
  rw [Database.withBackingRow, backing_onFile, ← setBacking_onFile, ← Table.insert_map,
    Option.map_some, BackingTable.holding_add]

theorem withEntity_onFile :
    (s.onFile l).withEntity (.ofTarget t) =
      { s with entities := s.entities.insert t }.onFile l := by
  rw [Database.withEntity, onFile, onFile, Option.map_some, Table.insert_map]

theorem withSession_onFile (x : Session) (holdings : Table Holding Holding.owner) :
    (s.onFile l).withSession (.ofSession x) =
      { s with sessions := s.sessions.insert x, holdings := holdings }.onFile l := by
  rw [Database.withSession, onFile, onFile, Option.map_some, Table.insert_map]

theorem withoutSessions_onFile {p : SessionRow → Bool} {q : Session → Bool}
    (hp : ∀ x ∈ s.sessions.rows, p (.ofSession x) = q x) (holdings : Table Holding Holding.owner) :
    (s.onFile l).withoutSessions p =
      { s with sessions := s.sessions.keep fun x => !q x, holdings := holdings }.onFile l := by
  have hkeep : (s.sessions.keep fun x => !p (.ofSession x)) = s.sessions.keep fun x => !q x :=
    Table.keep_congr fun x hx => congrArg not (hp x hx)
  rw [Database.withoutSessions, onFile, onFile, Option.map_some, Table.keep_map, hkeep]

/-- Where every session has its entity, an entity goes with all its sessions. -/
theorem Indexed.withoutEntities_onFile (h : s.Indexed) {p : EntityRow → Bool}
    (hp : ∀ t', p (.ofTarget t') = (t' == t)) :
    (s.onFile l).withoutEntities p = (s.without t).onFile l := by
  have hentities : (s.entities.keep fun t' => !p (.ofTarget t')) = s.entities.erase t := by
    refine Table.ext_of_mem fun t' => ?_
    simp [hp]
  -- no session is spared for want of its entity
  have hsessions : (s.sessions.keep fun x => !(p (.ofTarget x.target) && s.hasEntity x.target)) =
      s.sessions.keep fun x => x.target != t := by
    refine Table.keep_congr fun x hx => ?_
    rw [hp, hasEntity_iff.mpr (h.owned x hx), Bool.and_true]
    rfl
  have hentityTable : ((s.onFile l).entities.map fun rows => rows.keep fun r => !p r) =
      ((s.without t).onFile l).entities := by
    rw [onFile, Option.map_some, Table.keep_map, hentities]
    rfl
  have hsessionTable : ((s.onFile l).sessions.map fun rows => rows.keep fun r =>
      !(p r.owner && ((s.onFile l).entities.getD ∅).contains r.owner)) =
      ((s.without t).onFile l).sessions := by
    show some ((s.sessions.map SessionRow.ofSession compare_ofSession).keep _) = _
    rw [Table.keep_map]
    simp only [owner_ofSession, contains_entities_onFile, hsessions]
    rfl
  rw [Database.withoutEntities, hentityTable, hsessionTable]
  rfl

theorem reference_ofTarget (t t' : Target) :
    ((EntityRow.ofTarget t').reference t.kind == some (.ofString t.id)) = (t' == t) := by
  rw [Bool.eq_iff_iff, beq_iff_eq, beq_iff_eq, Database.reference_eq_some_ofTarget, ofTarget_inj]

theorem Indexed.withoutBacking_onFile (h : s.Indexed) :
    (s.onFile l).withoutBacking t.kind (.ofString t.id) =
      ((s.setBacking t.kind ((s.backing t.kind).erase (octets t.id))).without t).onFile l := by
  have herase : ((s.backing t.kind).map Cell.ofString compare_ofString : Table Cell id).erase
      (.ofString t.id) =
        ((s.backing t.kind).erase (octets t.id)).map Cell.ofString compare_ofString :=
    Table.erase_map (f := Cell.ofString) (h := compare_ofString)
      (fun r => compare_ofString r t.id) (s.backing t.kind)
  rw [Database.withoutBacking, backing_onFile, Option.map_some, BackingTable.holding_remove, herase,
    setBacking_onFile]
  exact (h.setBacking _ _).withoutEntities_onFile (reference_ofTarget t)

/-! ### The ownership chain -/

/-- The chain holds in the image of a store in which it holds. -/
theorem Sound.whole_onFile (h : s.Sound) : (s.onFile l).Whole where
  backed r hr := by
    obtain ⟨t, ht, rfl⟩ := List.mem_map.mp hr
    rw [Database.isBacked_iff]
    intro k hk
    obtain rfl : t.kind = k := Database.ofString_tag_injective hk
    rw [← Database.any_backing]
    exact (hasBackingRow_onFile (l := l)).trans (hasBacking_iff.mpr (h.backed t ht))
  owned r hr := by
    obtain ⟨x, hx, rfl⟩ := List.mem_map.mp hr
    exact List.mem_map_of_mem (h.owned x hx)

end MemoryStore

end OwnershipRegistry
