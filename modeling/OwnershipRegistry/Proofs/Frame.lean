import OwnershipRegistry.Proofs.BackingRecords
import OwnershipRegistry.Proofs.File.Image
import OwnershipRegistry.Proofs.File.Reports
import OwnershipRegistry.Proofs.Independence

/-!
The frame of an operation: the rows that it leaves as they are. Which rows an operation
may add or take away is told by the operation alone, whatever the store holds and
whether it succeeds. A row that is not among them is there afterwards just if it was
there before, and everything that is said here of what stays is read off from that.
-/

namespace OwnershipRegistry

/-! ### Rows and operations -/

/-- A row of a store. A backing record and an entity are told by their pairs, a
session by all its columns. -/
inductive StoreRow (π ς : Type)
  | record (pair : π)
  | entity (pair : π)
  | session (columns : ς)

/-- How a store writes targets and sessions. -/
structure Layout (π ς : Type) where
  pair : Target → π
  owner : ς → π
  named : ς → SessionId → Prop
  pair_injective : ∀ {t t' : Target}, pair t = pair t' → t = t'

/-- The pair to which a row belongs. -/
def StoreRow.pair {π ς : Type} (l : Layout π ς) : StoreRow π ς → π
  | record p | entity p => p
  | session s => l.owner s

namespace Operation

variable {π ς σ κ : Type} {l : Layout π ς} {op : Operation} {x : StoreRow π ς}

/-- The rows that an operation may add or take away. -/
def Reaches (l : Layout π ς) : Operation → StoreRow π ς → Prop
  | insertBacking t, .record p => p = l.pair t
  | deleteBacking t, x => x.pair l = l.pair t
  | backingDeleted t, .entity p => p = l.pair t
  | backingDeleted t, .session s => l.owner s = l.pair t
  | register t, .entity p | ensureRegistered t, .entity p => p = l.pair t
  | createSession new, .session s => l.owner s = l.pair new.target ∧ l.named s new.id
  | deleteSession id, .session s => l.named s id
  | deleteAllSessions t, .session s => l.owner s = l.pair t
  | _, _ => False

/-- Whether an operation is about backing records. -/
def onRecords : Operation → Bool
  | insertBacking _ | deleteBacking _ => true
  | _ => false

/-- Whether an operation changes sessions and nothing else. -/
def onSessions : Operation → Bool
  | createSession _ | deleteSession _ | deleteAllSessions _ => true
  | _ => false

/-- What an operation leaves as it is between a store that holds some rows and one
that holds others. -/
structure Frames (l : Layout π ς) (op : Operation) (holds holds' : StoreRow π ς → Prop) :
    Prop where
  /-- Rows of other targets than the one that is named. -/
  others : ∀ t, op.target? = some t → ∀ x : StoreRow π ς, x.pair l ≠ l.pair t →
    (holds' x ↔ holds x)
  /-- Above all those of the target with the same identifier and the other kind. -/
  twin : ∀ t k, op.target? = some t → k ≠ t.kind →
    ∀ x : StoreRow π ς, x.pair l = l.pair ⟨k, t.id⟩ → (holds' x ↔ holds x)
  /-- Backing records, also that of the target. -/
  records : op.onRecords = false → ∀ p, holds' (.record p) ↔ holds (.record p)
  /-- Backing records and entities, also those of the target. -/
  chain : op.onSessions = true → ∀ p,
    (holds' (.record p) ↔ holds (.record p)) ∧ (holds' (.entity p) ↔ holds (.entity p))
  /-- Sessions under other identifiers than the one that is named. -/
  sessions : ∀ id, op = .deleteSession id → ∀ s, ¬l.named s id →
    (holds' (.session s) ↔ holds (.session s))

theorem pair_of_reaches {t : Target} (ht : op.target? = some t) (h : op.Reaches l x) :
    x.pair l = l.pair t := by
  cases op with
  | deleteBacking t' =>
      obtain rfl := Option.some.inj ht
      exact h
  | createSession new =>
      obtain rfl := Option.some.inj ht
      cases x with
      | session s => exact h.1
      | record p | entity p => exact h.elim
  | insertBacking t' | backingDeleted t' | register t' | ensureRegistered t'
  | deleteAllSessions t' =>
      obtain rfl := Option.some.inj ht
      cases x <;> first | exact h | exact h.elim
  | backingExists | lookup | listSessions => exact h.elim
  | listEntities | getSession | deleteSession | verify => cases ht

theorem not_reaches_record (h : op.onRecords = false) (p : π) : ¬op.Reaches l (.record p) := by
  cases op with
  | insertBacking | deleteBacking => cases h
  | _ => exact not_false

theorem not_reaches_entity (h : op.onSessions = true) (p : π) : ¬op.Reaches l (.entity p) := by
  cases op with
  | createSession | deleteSession | deleteAllSessions => exact not_false
  | _ => cases h

/-- What an operation leaves as it is follows from the rows that it reaches. -/
theorem frames_of_unreached {holds holds' : StoreRow π ς → Prop}
    (h : ∀ x, ¬op.Reaches l x → (holds' x ↔ holds x)) : op.Frames l holds holds' where
  others t ht x hx := h x fun hreach => hx (pair_of_reaches ht hreach)
  twin t k ht hk x hx := by
    refine h x fun hreach => hk ?_
    have hsame : l.pair ⟨k, t.id⟩ = l.pair t := hx.symm.trans (pair_of_reaches ht hreach)
    exact congrArg Target.kind (l.pair_injective hsame)
  records hop p := h _ (not_reaches_record hop p)
  chain hop p := by
    have hrecords : op.onRecords = false := by
      cases op with
      | createSession | deleteSession | deleteAllSessions => rfl
      | _ => cases hop
    exact ⟨h _ (not_reaches_record hrecords p), h _ (not_reaches_entity hop p)⟩
  sessions id hop s hs := by
    subst hop
    exact h _ hs

end Operation

/-! ### The file -/

namespace Database

/-- How targets and sessions stand in the file. -/
def layout : Layout EntityRow SessionRow where
  pair := .ofTarget
  owner := SessionRow.owner
  named s id := s.id = .ofString id.text
  pair_injective := OwnershipRegistry.ofTarget_inj.mp

/-- Whether a row is in the file. -/
def Holds (db : Database) : StoreRow EntityRow SessionRow → Prop
  | .record p => db.Backed p
  | .entity p => p ∈ db.entityRows
  | .session s => s ∈ db.sessionRows

end Database

namespace FileStore

open Database

variable {now : Instant} {db db' : Database} {op : Operation} {a : Answer}
  {x : StoreRow EntityRow SessionRow}

/-- An operation that succeeds on the file leaves the rows that it does not reach. -/
theorem Effect.holds_iff (h : Effect now db op a db') (hx : ¬op.Reaches layout x) :
    db'.Holds x ↔ db.Holds x := by
  cases h with
  | backingAdded t table free =>
      cases x with
      | record p =>
          refine exists_congr fun k => and_congr_right fun hk => ?_
          rw [mem_backingIds_withBackingRow table free]
          refine or_iff_left ?_
          rintro ⟨rfl, hid⟩
          exact hx (reference_eq_some_ofTarget.mp (reference_eq_some.mpr ⟨hk, hid⟩))
      | entity p => simp only [Holds, entityRows_withBackingRow]
      | session s => simp only [Holds, sessionRows_withBackingRow]
  | backingDeleted t ids listed present =>
      cases x with
      | record p =>
          refine exists_congr fun k => and_congr_right fun hk => ?_
          rw [mem_backingIds_withoutBacking]
          refine and_iff_left ?_
          rintro rfl hid
          exact hx (reference_eq_some_ofTarget.mp (reference_eq_some.mpr ⟨hk, hid⟩))
      | entity p =>
          have hne : p.reference t.kind ≠ some (.ofString t.id) :=
            fun href => hx (reference_eq_some_ofTarget.mp href)
          simp [Holds, hne]
      | session s =>
          have hne : s.owner.reference t.kind ≠ some (.ofString t.id) :=
            fun href => hx (reference_eq_some_ofTarget.mp href)
          simp [Holds, hne]
  | entityDeleted t ids listed =>
      cases x with
      | record p => simp only [Holds, Backed, backingIds_withoutEntities]
      | entity p =>
          have hne : p ≠ .ofTarget t := hx
          simp [Holds, hne]
      | session s =>
          have hne : s.owner ≠ .ofTarget t := hx
          simp [Holds, hne]
  | registered op t asked table free backed =>
      cases x with
      | record p => simp only [Holds, Backed, backingIds_withEntity]
      | entity p =>
          have hne : p ≠ .ofTarget t := by rcases asked with rfl | rfl <;> exact hx
          simp only [Holds, mem_entityRows_withEntity table free, or_iff_right hne]
      | session s => rfl
  | sessionMade new table free owned =>
      cases x with
      | record p => simp only [Holds, Backed, backingIds_withSession]
      | entity p => rfl
      | session s =>
          have hne : s ≠ .ofSession (new.toSession now) := by
            rintro rfl
            exact hx ⟨rfl, rfl⟩
          exact (mem_sessionRows_withSession table free).trans (or_iff_right hne)
  | sessionDeleted id present =>
      cases x with
      | record p => simp only [Holds, Backed, backingIds_withoutSessions]
      | entity p => rfl
      | session s =>
          have hne : s.id ≠ .ofString id.text := hx
          simp [Holds, hne]
  | sessionsDeleted t =>
      cases x with
      | record p => simp only [Holds, Backed, backingIds_withoutSessions]
      | entity p => rfl
      | session s =>
          have hne : s.owner ≠ .ofTarget t := hx
          simp [Holds, hne]
  | backingLeftOut | backingMissed | ensured | looked => rfl

/-- Whatever the file holds, whoever asks and whatever is in the way, an operation
leaves the rows that it does not reach. -/
theorem Caller.holds_run_iff (c : Caller) (hx : ¬op.Reaches layout x) :
    (c.run db op).store.Holds x ↔ db.Holds x := by
  cases h : (c.run db op).answer with
  | ok a => exact (Caller.run_effect h).holds_iff hx
  | error e =>
      have hstore : (c.run db op).store = db := runKnowing_store_of_error h
      rw [hstore]

/-- The file after a history of operations, each by its caller. -/
def Caller.after (db : Database) (history : List (Caller × Operation)) : Database :=
  history.foldl (fun db step => (step.1.run db step.2).store) db

/-- A row that no operation of a history reaches is there after it just if it was
there before. -/
theorem Caller.holds_after_iff {history : List (Caller × Operation)}
    (hx : ∀ step ∈ history, ¬step.2.Reaches layout x) :
    (Caller.after db history).Holds x ↔ db.Holds x := by
  induction history generalizing db with
  | nil => rfl
  | cons step history ih =>
      have hstep : (step.1.run db step.2).store.Holds x ↔ db.Holds x :=
        step.1.holds_run_iff (hx step List.mem_cons_self)
      exact (ih fun other hother => hx other (List.mem_cons_of_mem _ hother)).trans hstep

end FileStore

/-! ### Memory -/

namespace MemoryStore

variable {s : MemoryStore} {now : Instant} {op : Operation} {t t' : Target}
  {x : StoreRow Target Session}

/-- How targets and sessions stand in memory: as they are. -/
def layout : Layout Target Session where
  pair := id
  owner := Session.target
  named s id := s.id = id
  pair_injective h := h

/-- Whether a row is in a store. -/
def Holds (s : MemoryStore) : StoreRow Target Session → Prop
  | .record t => s.hasBacking t = true
  | .entity t => t ∈ s.entities.rows
  | .session x => x ∈ s.sessions.rows

theorem hasBacking_setBacking_erase_iff :
    (s.setBacking t.kind ((s.backing t.kind).erase (octets t.id))).hasBacking t' = true ↔
      s.hasBacking t' = true ∧ t' ≠ t := by
  rw [hasBacking, backing_setBacking, hasBacking]
  split_ifs with hkind
  · have hid : octets t'.id = octets t.id ↔ t' = t := by
      constructor
      · intro hid
        obtain ⟨k, id⟩ := t
        obtain ⟨k', id'⟩ := t'
        obtain rfl : k' = k := hkind
        obtain rfl : id' = id := octets_injective hid
        rfl
      · rintro rfl
        rfl
    rw [Table.contains_erase, Ne, hid, hkind, and_comm]
  · refine (and_iff_left ?_).symm
    rintro rfl
    exact hkind rfl

theorem holds_without (hx : ¬(Operation.backingDeleted t).Reaches layout x) :
    (s.without t).Holds x ↔ s.Holds x := by
  cases x with
  | record t' => rfl
  | entity t' =>
      have hne : t' ≠ t := hx
      exact Table.mem_rows_erase.trans (and_iff_left hne)
  | session x =>
      have hne : x.target ≠ t := hx
      exact Table.mem_rows_keep.trans (and_iff_left (bne_iff_ne.mpr hne))

theorem Indexed.holds_deleteBacking (h : s.Indexed)
    (hx : ¬(Operation.deleteBacking t).Reaches layout x) :
    (s.deleteBacking t).store.Holds x ↔ s.Holds x := by
  rw [(h.deleteBacking_eq t).1]
  cases x with
  | record t' =>
      have hne : t' ≠ t := hx
      exact hasBacking_setBacking_erase_iff.trans (and_iff_left hne)
  | entity t' =>
      refine (holds_without (t := t) (x := .entity t') hx).trans ?_
      simp only [Holds, entities_setBacking]
  | session x =>
      refine (holds_without (t := t) (x := .session x) hx).trans ?_
      simp only [Holds, sessions_setBacking]

theorem Indexed.holds_backingDeleted (h : s.Indexed)
    (hx : ¬(Operation.backingDeleted t).Reaches layout x) :
    (s.backingDeleted t).store.Holds x ↔ s.Holds x := by
  rw [MemoryStore.backingDeleted, h.removeEntity_eq]
  exact holds_without hx

theorem holds_insertBacking (hx : ¬(Operation.insertBacking t).Reaches layout x) :
    (s.insertBacking t).store.Holds x ↔ s.Holds x := by
  cases x with
  | record t' =>
      have hne : t' ≠ t := hx
      exact hasBacking_insertBacking.trans (or_iff_right hne)
  | entity t' | session x =>
      rw [insertBacking]
      split_ifs
      · rfl
      · simp only [Holds, entities_setBacking, sessions_setBacking]

theorem holds_register (hx : x ≠ .entity t) : (s.register t).store.Holds x ↔ s.Holds x := by
  rw [register]
  split_ifs with hentity hbacked
  · rfl
  · rfl
  · cases x with
    | record t' | session x => rfl
    | entity t' =>
        have hne : t' ≠ t := fun h => hx (congrArg _ h)
        have hfree : s.entities.contains t = false := Bool.eq_false_iff.mpr hentity
        exact (Table.mem_rows_insert hfree).trans (or_iff_right hne)

theorem holds_createSession {new : NewSession}
    (hx : ¬(Operation.createSession new).Reaches layout x) :
    (s.createSession now new).store.Holds x ↔ s.Holds x := by
  rw [createSession]
  split_ifs with hentity htaken
  · rfl
  · rfl
  · cases x with
    | record t | entity t => rfl
    | session x =>
        have hne : x ≠ new.toSession now := by
          rintro rfl
          exact hx ⟨rfl, rfl⟩
        have hfree : s.sessions.contains new.id.key = false := Bool.eq_false_iff.mpr htaken
        exact (Table.mem_rows_insert (r := new.toSession now) hfree).trans (or_iff_right hne)

theorem holds_deleteSession {id : SessionId}
    (hx : ¬(Operation.deleteSession id).Reaches layout x) :
    (s.deleteSession id).store.Holds x ↔ s.Holds x := by
  rw [deleteSession]
  split
  · rfl
  · cases x with
    | record t | entity t => rfl
    | session x =>
        have hne : x.key ≠ id.key := fun hkey => hx (SessionId.key_injective hkey)
        exact Table.mem_rows_erase.trans (and_iff_left hne)

theorem Indexed.holds_deleteAllSessions (h : s.Indexed)
    (hx : ¬(Operation.deleteAllSessions t).Reaches layout x) :
    (s.deleteAllSessions t).store.Holds x ↔ s.Holds x := by
  simp only [deleteAllSessions, h.filed.sessionsWithout_heldBy]
  cases x with
  | record t' | entity t' => rfl
  | session x =>
      have hne : x.target ≠ t := hx
      simp [Holds, hne]

/-- Where the index is right, an operation leaves the rows that it does not reach. -/
theorem Indexed.holds_run_iff (h : s.Indexed) (hx : ¬op.Reaches layout x) :
    (s.run now op).store.Holds x ↔ s.Holds x := by
  cases op with
  | insertBacking t => exact holds_insertBacking hx
  | deleteBacking t => exact h.holds_deleteBacking hx
  | backingDeleted t => exact h.holds_backingDeleted hx
  | register t =>
      refine holds_register ?_
      rintro rfl
      exact hx rfl
  | ensureRegistered t =>
      rw [run, Outcome.store_map, Outcome.store_ensuring]
      refine holds_register ?_
      rintro rfl
      exact hx rfl
  | createSession new => exact holds_createSession hx
  | deleteSession id => exact holds_deleteSession hx
  | deleteAllSessions t => exact h.holds_deleteAllSessions hx
  | backingExists | lookup | listEntities | getSession | listSessions | verify => rfl

/-- A row that no operation of a history reaches is there after it just if it was
there before. -/
theorem Sound.holds_after_iff (h : s.Sound) {history : List (Instant × Operation)}
    (hx : ∀ step ∈ history, ¬step.2.Reaches layout x) :
    (s.after history).Holds x ↔ s.Holds x := by
  induction history generalizing s with
  | nil => rfl
  | cons step history ih =>
      have hstep : (s.run step.1 step.2).store.Holds x ↔ s.Holds x :=
        h.toIndexed.holds_run_iff (hx step List.mem_cons_self)
      have hrest := ih (h.run step.1 step.2) fun other hother =>
        hx other (List.mem_cons_of_mem _ hother)
      exact hrest.trans hstep

end MemoryStore

/-! ### Both -/

/-- An operation touches the rows of its own pair alone, on every content of the file
and in every store in memory that operations have led to, whether it succeeds or
not. -/
theorem operation_frames (op : Operation) :
    (∀ (c : FileStore.Caller) (db : Database),
        op.Frames Database.layout db.Holds (c.run db op).store.Holds) ∧
      ∀ (history : List (Instant × Operation)) (now : Instant),
        op.Frames MemoryStore.layout (MemoryStore.empty.after history).Holds
          ((MemoryStore.empty.after history).run now op).store.Holds := by
  constructor
  · intro c db
    exact Operation.frames_of_unreached fun x hx => c.holds_run_iff hx
  · intro history now
    have hsound : (MemoryStore.empty.after history).Sound := MemoryStore.empty_sound.after history
    exact Operation.frames_of_unreached fun x hx => hsound.toIndexed.holds_run_iff hx

end OwnershipRegistry
