import OwnershipRegistry.Proofs.File.Insertion
import OwnershipRegistry.Proofs.Memory.Sound

/-!
New backing records. An insertion that succeeds leaves a store in which the record
is seen and registrations do not miss it, and it changes nothing else. There is
one exception: a table of another program may refuse the new row, for a further
column that has to be filled, a condition or a further key, and the insertion
leaves the record out without a word.
-/

namespace OwnershipRegistry

section Promise

variable {σ κ : Type}

/-- A store in which whoever can read sees the backing record of a target, and no
registration of the target misses it. -/
structure Supports (run : σ → κ → Operation → Outcome σ Answer) (reads : κ → Prop) (t : Target)
    (s : σ) : Prop where
  seen : ∀ c, reads c → (run s c (.backingExists t)).answer = .ok (.flag true)
  registrable : ∀ c t', (run s c (.register t)).answer ≠ .error (.unknownBacking t')

/-- What an insertion of a backing record that succeeds leaves of a store. -/
structure Inserts (run : σ → κ → Operation → Outcome σ Answer) (reads : κ → Prop) (t : Target)
    (same : σ → σ → Prop) (leftOut : Prop) (s s' : σ) : Prop where
  /-- All else is the same. -/
  others : same s s'
  again : ∀ c, (run s' c (.insertBacking t)).store = s'
  supports : ¬leftOut → Supports run reads t s'
  /-- A record that is left out is not there, and nothing has changed. -/
  missing : leftOut → s' = s ∧
    ∀ c, reads c → (run s' c (.backingExists t)).answer = .ok (.flag false)

end Promise

namespace MemoryStore

/-- Two stores in memory that differ in the backing record of a target at most. -/
structure SameElsewhere (t : Target) (s s' : MemoryStore) : Prop where
  records : ∀ t', t' ≠ t → s'.hasBacking t' = s.hasBacking t'
  others : s' = { s with bots := s'.bots, users := s'.users }

variable {s : MemoryStore} {t t' : Target}

theorem insertBacking_of_hasBacking (h : s.hasBacking t = true) :
    s.insertBacking t = .read s (.ok ()) := by
  rw [insertBacking, if_pos h]

theorem hasBacking_insertBacking :
    (s.insertBacking t).store.hasBacking t' = true ↔ t' = t ∨ s.hasBacking t' = true := by
  cases hbacked : s.hasBacking t with
  | true =>
      rw [insertBacking_of_hasBacking hbacked, Outcome.store_read]
      constructor
      · exact .inr
      · rintro (rfl | h)
        · exact hbacked
        · exact h
  | false =>
      have hstore : (s.insertBacking t).store =
          s.setBacking t.kind ((s.backing t.kind).insert t.id) := by
        rw [insertBacking, if_neg (by simp [hbacked])]
      rw [hstore, hasBacking, hasBacking, backing_setBacking]
      split_ifs with hkind
      · rw [Table.contains_insert, hkind]
        refine or_congr_left ?_
        constructor
        · intro hid
          obtain ⟨k, id⟩ := t
          obtain ⟨k', id'⟩ := t'
          obtain rfl : k' = k := hkind
          obtain rfl : id' = id := octets_injective hid
          rfl
        · rintro rfl
          rfl
      · refine (or_iff_right ?_).symm
        rintro rfl
        exact hkind rfl

/-- In memory every insertion of a backing record succeeds and leaves nothing
out. -/
theorem insertBacking_inserts (s : MemoryStore) (now : Instant) (t : Target) :
    (s.run now (.insertBacking t)).answer = .ok .done ∧
      Inserts run (fun _ => True) t (SameElsewhere t) False s
        (s.run now (.insertBacking t)).store := by
  have hbacked : (s.insertBacking t).store.hasBacking t = true :=
    hasBacking_insertBacking.mpr (.inl rfl)
  have hanswer : (s.insertBacking t).answer = .ok () := by
    rw [insertBacking]
    split_ifs <;> rfl
  refine ⟨by rw [run, Outcome.answer_map, hanswer]; rfl, ?_⟩
  rw [run, Outcome.store_map]
  refine ⟨⟨fun t' ht' => ?_, ?_⟩, fun c => ?_, fun _ => ⟨fun c _ => ?_, fun c t' => ?_⟩, False.elim⟩
  · rw [Bool.eq_iff_iff, hasBacking_insertBacking, or_iff_right ht']
  · rw [insertBacking]
    split_ifs with h
    · rfl
    · cases t.kind <;> rfl
  · rw [run, Outcome.store_map, insertBacking_of_hasBacking hbacked, Outcome.store_read]
  · rw [run, hbacked]
    rfl
  · rw [run, Outcome.answer_map, Ne, Except.map_eq_error, register, hbacked, Bool.not_true,
      if_neg Bool.false_ne_true]
    split_ifs <;> simp

end MemoryStore

namespace Database

/-- The backing records of a kind as they stand, with their further columns. -/
def backingRows (db : Database) (k : Kind) : List BackingRow := ((db.backing k).getD {}).rows.rows

/-- Two files that differ in the backing record of a target at most. -/
structure SameElsewhere (t : Target) (db db' : Database) : Prop where
  records : ∀ (k : Kind) (row : BackingRow), (k = t.kind → row.id ≠ .ofString t.id) →
    (row ∈ db'.backingRows k ↔ row ∈ db.backingRows k)
  /-- The tables ask of their rows what they did. -/
  rules : ∀ k, (db'.backing k).map ({ · with rows := ∅ }) =
    (db.backing k).map ({ · with rows := ∅ })
  others : db' = { db with bots := db'.bots, users := db'.users }

variable {db : Database} {t : Target}

theorem sameElsewhere_refl (t : Target) (db : Database) : SameElsewhere t db db :=
  ⟨fun _ _ _ => Iff.rfl, fun _ => rfl, rfl⟩

theorem sameElsewhere_withBackingRow (hb : (db.backing t.kind).isSome)
    (hid : .ofString t.id ∉ db.backingIds t.kind) :
    SameElsewhere t db (db.withBackingRow t.kind (.ofString t.id)) where
  records k row hne := by
    obtain ⟨b, hb⟩ := Option.isSome_iff_exists.mp hb
    have hfree : b.rows.contains (.ofString t.id) = false := by
      rwa [mem_backingIds hb, BackingTable.contains_ids, Bool.not_eq_true] at hid
    rw [withBackingRow, backingRows, backing_setBacking, backingRows]
    split_ifs with hk
    · subst hk
      simp only [hb, Option.map_some, Option.getD_some, BackingTable.add]
      rw [Table.mem_rows_insert (r := b.newRow (.ofString t.id)) hfree]
      refine or_iff_right ?_
      rintro rfl
      exact hne rfl rfl
    · rfl
  rules k := by
    rw [withBackingRow, backing_setBacking]
    split_ifs with hk
    · rw [hk, Option.map_map]
      rfl
    · rfl
  others := by
    rw [withBackingRow]
    cases t.kind <;> rfl

/-- Where a backing record is, stores see it and registrations do not miss it. -/
theorem supports_of_mem (hb : db.has (.ofKind t.kind) = true)
    (h : .ofString t.id ∈ db.backingIds t.kind) :
    Supports FileStore.Caller.run (fun c => c.access.reads = true) t db where
  seen c hr := by
    rw [FileStore.Caller.backingExists_eq hr hb, hasBackingRow, any_backing.mpr h]
  registrable c t' hanswer :=
    (FileStore.Caller.register_rejection hanswer).of_unbacked.2.2 h

end Database

/-- An insertion of a backing record in the file that succeeds. -/
theorem FileStore.Caller.insertBacking_inserts {c : FileStore.Caller} {db : Database}
    {t : Target} {x : Answer} (h : (c.run db (.insertBacking t)).answer = .ok x) :
    x = .done ∧
      Inserts FileStore.Caller.run (fun c => c.access.reads = true) t
        (Database.SameElsewhere t) (db.LeavesOut t) db (c.run db (.insertBacking t)).store := by
  obtain ⟨rfl, ⟨hstore, htable, hfree, haccepted⟩ | ⟨hstore, hkept⟩⟩ := insertBacking_ok h
  · have hmem : .ofString t.id ∈
        (db.withBackingRow t.kind (.ofString t.id)).backingIds t.kind :=
      (Database.mem_backingIds_withBackingRow htable hfree).mpr (.inr ⟨rfl, rfl⟩)
    have hhas : (db.withBackingRow t.kind (.ofString t.id)).has (.ofKind t.kind) = true := by
      rw [Database.has_withBackingRow, Database.has_ofKind, htable]
    rw [hstore]
    exact ⟨rfl, Database.sameElsewhere_withBackingRow htable hfree,
      fun c => insertBacking_store_eq (.inl hmem) c,
      fun _ => Database.supports_of_mem hhas hmem, fun hout => absurd hout.1 haccepted⟩
  · rw [hstore]
    refine ⟨rfl, Database.sameElsewhere_refl t db, fun c => insertBacking_store_eq hkept c,
      fun hin => ?_, fun hout => ⟨rfl, fun c hr => ?_⟩⟩
    · have hmem : .ofString t.id ∈ db.backingIds t.kind := by
        by_contra habsent
        exact hin ⟨hkept.resolve_left habsent, habsent⟩
      exact Database.supports_of_mem (Database.has_of_mem_backingIds hmem) hmem
    · obtain ⟨⟨b, hb, -⟩, habsent⟩ := hout
      have hhas : db.has (.ofKind t.kind) = true := by rw [Database.has_ofKind, hb]; rfl
      rw [FileStore.Caller.backingExists_eq hr hhas, Database.hasBackingRow,
        Bool.eq_false_iff.mpr fun hmem => habsent (Database.any_backing.mp hmem)]

/-- What insertions of backing records that succeed leave, in memory and in the
file. In memory every one of them succeeds and keeps its promise; in the file one
that succeeds does, unless its table refuses a row that is not there. -/
theorem insertions_keep_promise (t : Target) (s : MemoryStore) (now : Instant)
    (c : FileStore.Caller) (db : Database) :
    ((s.run now (.insertBacking t)).answer = .ok .done ∧
      Inserts MemoryStore.run (fun _ => True) t (MemoryStore.SameElsewhere t) False s
        (s.run now (.insertBacking t)).store) ∧
    ∀ x : Answer, (c.run db (.insertBacking t)).answer = .ok x →
      x = .done ∧
        Inserts FileStore.Caller.run (fun c => c.access.reads = true) t
          (Database.SameElsewhere t) (db.LeavesOut t) db (c.run db (.insertBacking t)).store :=
  ⟨MemoryStore.insertBacking_inserts s now t, fun _ h => FileStore.Caller.insertBacking_inserts h⟩

/-- A file in which bots have a further required column. -/
def Database.guardedBots : Database where
  bots := some { guard := some "extra" }
  users := some {}
  entities := some ∅
  sessions := some ∅

/-- The new record of a bot is left out, so that its registration fails; that of a
user is added. -/
theorem insertions_keep_promise_guardedBots :
    (FileStore.Caller.run .guardedBots ⟨Database.empty.outline, .free, .epoch⟩
      (.insertBacking ⟨.bot, "a"⟩)).answer = .ok .done ∧
    (FileStore.Caller.run .guardedBots ⟨Database.empty.outline, .free, .epoch⟩
      (.insertBacking ⟨.bot, "a"⟩)).store = .guardedBots ∧
    (FileStore.Caller.run .guardedBots ⟨Database.empty.outline, .free, .epoch⟩
      (.register ⟨.bot, "a"⟩)).answer = .error (.unknownBacking ⟨.bot, "a"⟩) ∧
    Supports FileStore.Caller.run (fun c => c.access.reads = true) ⟨.user, "a"⟩
      (FileStore.Caller.run .guardedBots ⟨Database.empty.outline, .free, .epoch⟩
        (.insertBacking ⟨.user, "a"⟩)).store := by
  have hfile (t : Target) := (insertions_keep_promise t .empty .epoch
    ⟨Database.empty.outline, .free, .epoch⟩ .guardedBots).2 .done
  have hbot := hfile ⟨.bot, "a"⟩ rfl
  have huser := hfile ⟨.user, "a"⟩ rfl
  have hout : Database.guardedBots.LeavesOut ⟨.bot, "a"⟩ :=
    ⟨⟨_, rfl, .unfilled "extra" rfl⟩, List.not_mem_nil⟩
  refine ⟨rfl, (hbot.2.missing hout).1, rfl, huser.2.supports ?_⟩
  rintro ⟨⟨b, hb, hrefuses⟩, -⟩
  obtain rfl := Option.some.inj hb
  have hnone : ({} : BackingTable).faults {} .user (.ofString "a") = [] := rfl
  exact (BackingTable.faults_eq_nil_iff.mp hnone).not_refuses hrefuses

/-- A file in which bots have a further column that no two of them may share, and
which is an empty text unless one is given. -/
def Database.sharedBots : Database where
  bots := some {
    rows := .ofList [⟨.ofString "a", [some (.ofString "")]⟩]
    defaults := fun _ => [some (.ofString "")]
    keys := [⟨["slug"], fun row => row.further.mapM id⟩] }
  users := some {}
  entities := some ∅
  sessions := some ∅

-- the second bot would share the column with the first
example : Database.sharedBots.LeavesOut ⟨.bot, "b"⟩ ∧
    (FileStore.Caller.run .sharedBots ⟨Database.empty.outline, .free, .epoch⟩
      (.insertBacking ⟨.bot, "b"⟩)).answer = .ok .done ∧
    (FileStore.Caller.run .sharedBots ⟨Database.empty.outline, .free, .epoch⟩
      (.backingExists ⟨.bot, "b"⟩)).answer = .ok (.flag false) :=
  ⟨⟨⟨_, rfl, .shared _ List.mem_cons_self (by decide)⟩, by decide⟩, rfl, rfl⟩

end OwnershipRegistry
