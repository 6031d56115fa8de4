import OwnershipRegistry.Proofs.File.Effect
import OwnershipRegistry.Proofs.Independence

/-!
Operations on files that look alike. Whoever looks at a file sees some of what it holds.
If two files look alike, and what a statement reads is the same in both and what it makes of
them looks alike again, then an operation that makes the statement has the same answer and
the same events on both, and leaves files that look alike.
-/

namespace OwnershipRegistry

namespace Database

variable {db db' : Database} {α : Type}

theorem understood_congr (h : db.outline = db'.outline) (rules : Rules) (s : Statement)
    (f : Except Fault α) : db.understood rules s f = db'.understood rules s f := by
  rw [understood, understood, refusal, refusal, h]

theorem understood_map {β : Type} {rules : Rules} (g : α → β) (s : Statement) (f : Except Fault α) :
    db.understood rules s (f.map g) = (db.understood rules s f).map g := by
  unfold understood
  split <;> rfl

/-- What a statement leaves and answers, where only some of what it leaves is seen. -/
def seenBy (look : Database → Database) (x : Database × α) : Database × α := (look x.1, x.2)

end Database

namespace FileStore

open Database

/-- Two files that look alike, and in which every statement is understood alike. -/
structure LookAlike (look look' : Database → Database) (db db' : Database) : Prop where
  seen : look db = look' db'
  outline : db.outline = db'.outline

variable {a : Access} {now : Instant} {look look' : Database → Database} {db db' : Database}
  {t : Target}

theorem writing_onStore {α : Type} {f f' : Database → Except RegistryError (Database × α)}
    {events : α → List Event} (h : look db = look' db')
    (hf : (f db).map (seenBy look) = (f' db').map (seenBy look')) :
    (writing a db f events).onStore look = (writing a db' f' events).onStore look' := by
  unfold writing Access.write
  cases a.begins with
  | false => simp only [Outcome.onStore, Bool.false_eq_true, if_false, h]
  | true =>
    rcases Except.map_eq_map_iff.mp hf with ⟨e, hx, hx'⟩ | ⟨⟨d, x⟩, ⟨d', x'⟩, hx, hx', heq⟩
    · simp only [Outcome.onStore, if_true, hx, hx', h]
    · obtain ⟨hd, rfl⟩ := Prod.mk.inj heq
      have hd : look d = look' d' := hd
      cases a.commits <;>
        simp only [Outcome.onStore, if_true, Bool.false_eq_true, if_false, hx, hx', h, hd]

/-- Where nothing may be changed, statements are refused alike. -/
theorem LookAlike.change {α β : Type} (h : LookAlike look look' db db') (s : Statement)
    {x x' : Except Fault α} {p q : α → β} (hx : x.map p = x'.map q) :
    (a.change db s x).map p = (a.change db' s x').map q := by
  unfold Access.change
  split
  · exact hx
  · rw [understood_congr h.outline]
    unfold understood
    split <;> rfl

/-- Counts of what two deletions took are told alike. -/
theorem report_eq {α : Type} {x x' : Except Fault (Database × Nat)}
    (hx : x.map (seenBy look) = x'.map (seenBy look')) (tell : Nat → α) :
    (do
      let (db, deleted) ← x.mapError RegistryError.ofFault
      return (db, tell deleted)).map (seenBy look) =
    (do
      let (db, deleted) ← x'.mapError RegistryError.ofFault
      return (db, tell deleted)).map (seenBy look') := by
  rcases Except.map_eq_map_iff.mp hx with ⟨f, rfl, rfl⟩ | ⟨⟨d, n⟩, ⟨d', n'⟩, rfl, rfl, heq⟩
  · rfl
  · obtain ⟨hd, rfl⟩ := Prod.mk.inj heq
    have hd : look d = look' d' := hd
    exact congrArg (fun d => Except.ok (d, tell n)) hd

namespace LookAlike

variable (h : LookAlike look look' db db')

include h

theorem insertBacking
    (hinsert : (db.insertBacking {} t.kind (some (.ofString t.id))).map look =
      (db'.insertBacking {} t.kind (some (.ofString t.id))).map look') :
    (insertBacking a db t).onStore look = (insertBacking a db' t).onStore look' := by
  refine writing_onStore h.seen ?_
  have hchange := h.change (a := a) (.insertBacking t.kind) hinsert
  rcases Except.map_eq_map_iff.mp hchange with ⟨f, hx, hx'⟩ | ⟨d, d', hx, hx', hd⟩
  · simp only [hx, hx']
    split_ifs
    · simp only [Except.map, seenBy, h.seen]
    · rfl
  · simp only [hx, hx', Except.map, seenBy, hd]

theorem deleteBacking (hentity : db.entityPresent t = db'.entityPresent t)
    (hids : db.sessionIdsOf t = db'.sessionIdsOf t)
    (hdelete : (db.deleteBacking {} t.kind (some (.ofString t.id))).map (seenBy look) =
      (db'.deleteBacking {} t.kind (some (.ofString t.id))).map (seenBy look')) :
    (deleteBacking a db t).onStore look = (deleteBacking a db' t).onStore look' := by
  refine writing_onStore h.seen ?_
  rw [hentity, hids]
  cases db'.entityPresent t with
  | error f => rfl
  | ok entity =>
    cases db'.sessionIdsOf t with
    | error f => rfl
    | ok ids =>
      let tell (deleted : Nat) : CascadeReport :=
        if deleted = 0 then .empty t else ⟨t, true, entity, ids⟩
      exact report_eq (h.change (.deleteBacking t.kind) hdelete) tell

theorem backingDeleted (hbacking : db.backingPresent t = db'.backingPresent t)
    (hids : db.sessionIdsOf t = db'.sessionIdsOf t)
    (hdelete : (db.deleteEntities {} (· == .ofTarget t)).map (seenBy look) =
      (db'.deleteEntities {} (· == .ofTarget t)).map (seenBy look')) :
    (backingDeleted a db t).onStore look = (backingDeleted a db' t).onStore look' := by
  rw [FileStore.backingDeleted, FileStore.backingDeleted, hbacking]
  refine congrArg (Outcome.after _) (writing_onStore h.seen ?_)
  rw [hbacking, hids]
  cases db'.backingPresent t with
  | error f => rfl
  | ok backed =>
    cases db'.sessionIdsOf t with
    | error f => rfl
    | ok ids =>
      let tell (deleted : Nat) : CascadeReport := ⟨t, false, decide (0 < deleted), ids⟩
      exact report_eq (h.change .deleteEntity hdelete) tell

theorem register
    (hinsert : (db.insertEntity {} (some (.ofString t.id)) (some (.ofString t.kind.tag))).map look =
      (db'.insertEntity {} (some (.ofString t.id)) (some (.ofString t.kind.tag))).map look') :
    (register a db t).onStore look = (register a db' t).onStore look' := by
  refine congrArg (Outcome.after [.registering t]) (writing_onStore h.seen ?_)
  rcases Except.map_eq_map_iff.mp (h.change (a := a) .insertEntity hinsert) with
    ⟨f, hx, hx'⟩ | ⟨d, d', hx, hx', hd⟩
  · rw [hx, hx']
    cases f <;> rfl
  · simp only [hx, hx', Except.map, seenBy, hd]

theorem createSession {new : NewSession} {row : SessionRow}
    (hrow : row = .ofSession (new.toSession now))
    (hinsert : (db.insertSession {} (some row.id) (some row.targetId) (some row.targetKind)
        row.name (some row.createdAt)).map look =
      (db'.insertSession {} (some row.id) (some row.targetId) (some row.targetKind) row.name
        (some row.createdAt)).map look') :
    (createSession a now db new).onStore look = (createSession a now db' new).onStore look' := by
  subst hrow
  refine writing_onStore h.seen ?_
  rcases Except.map_eq_map_iff.mp (h.change (a := a) .insertSession hinsert) with
    ⟨f, hx, hx'⟩ | ⟨d, d', hx, hx', hd⟩
  · simp only [hx, hx']
    cases f <;> rfl
  · simp only [hx, hx', Except.map, seenBy, hd]

theorem deleteSession {id : SessionId}
    (hdelete : (db.deleteSessions {} (·.id == .ofString id.text)).map (seenBy look) =
      (db'.deleteSessions {} (·.id == .ofString id.text)).map (seenBy look')) :
    (deleteSession a db id).onStore look = (deleteSession a db' id).onStore look' := by
  have hjudge {α β : Type} (f : α → Except RegistryError β) (o : Outcome Database α)
      (g : Database → Database) : (o.judge f).onStore g = (o.onStore g).judge f := rfl
  rw [FileStore.deleteSession, FileStore.deleteSession, hjudge, hjudge]
  refine congrArg (Outcome.judge _) (writing_onStore h.seen ?_)
  rw [Except.map_mapError, Except.map_mapError, h.change .deleteSession hdelete]

theorem deleteAllSessions
    (hdelete : (db.deleteSessions {} (·.owner == .ofTarget t)).map (seenBy look) =
      (db'.deleteSessions {} (·.owner == .ofTarget t)).map (seenBy look')) :
    (deleteAllSessions a db t).onStore look = (deleteAllSessions a db' t).onStore look' := by
  refine writing_onStore h.seen ?_
  rw [Except.map_mapError, Except.map_mapError, h.change .deleteSession hdelete]

end LookAlike

end FileStore

end OwnershipRegistry
