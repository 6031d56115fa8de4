import OwnershipRegistry.Proofs.File.Image
import OwnershipRegistry.Proofs.Time.Strict

/-!
Reading the image of a store in memory. Every cell of the image is a text, every
kind one of the kinds, and every instant of the era is written in the form in
which it is read; so reading gives back what memory holds.
-/

namespace OwnershipRegistry

open OwnershipRegistry.Except (ok_bind mapM_eq_ok)

/-- The columns of the row of a session. -/
def SessionText.ofSession (x : Session) : SessionText :=
  ⟨x.id.text, x.target.id, x.target.kind.tag, x.name, x.createdAt.offsetText⟩

theorem read_ofSession (x : Session) :
    (SessionRow.ofSession x).read = .ok (.ofSession x) := by
  obtain ⟨id, target, name, createdAt⟩ := x
  cases name <;> simp only [SessionRow.read, SessionRow.ofSession, Cell.read_ofString, ok_bind,
    Option.map_none, Option.map_some, Option.mapM_none, Option.mapM_some] <;> rfl

theorem Target.parse_tag (t : Target) : Target.parse t.id t.kind.tag = .ok t := by
  rw [Target.parse, Target.ofTag?, Kind.ofTag?_tag]
  rfl

/-- A session of the era is what its columns stand for. -/
theorem toSession_ofSession {x : Session} (h : x.createdAt.InEra) :
    (SessionText.ofSession x).toSession = .ok x := by
  rw [SessionText.toSession]
  simp only [SessionText.ofSession, Target.parse_tag, ok_bind,
    Instant.ofStrictText_offsetText h]
  rfl

namespace MemoryStore

variable {s : MemoryStore} {l : Option Ledger} {t : Target}

/-- Every session was made in the era. -/
def Dated (s : MemoryStore) : Prop := ∀ x ∈ s.sessions.rows, x.createdAt.InEra

theorem sessionRows_onFile : (s.onFile l).sessionRows = s.sessions.rows.map .ofSession := rfl

theorem sessionRowsOf_onFile :
    (s.onFile l).sessionRowsOf t =
      .ok ((s.sessions.rows.filter fun x => x.target == t).map .ofSession) := by
  rw [(s.onFile_ready l).sessionRowsOf_eq, sessionRows_onFile, List.filter_map]
  simp only [Function.comp_def, owner_beq_ofTarget]

theorem sessionIdsOf_onFile (h : s.Indexed) :
    (s.onFile l).sessionIdsOf t = .ok (s.heldBy t).rows := by
  rw [Database.sessionIdsOf, sessionRowsOf_onFile, ok_bind, List.mapM_map, h.filed.heldBy_eq]
  refine mapM_eq_ok fun x _ => ?_
  simp only [Function.comp_def, SessionRow.ofSession, Cell.read_ofString, ok_bind]
  rfl

theorem sessionTextsOf_onFile :
    (s.onFile l).sessionTextsOf t =
      .ok ((s.sessions.rows.filter fun x => x.target == t).map .ofSession) := by
  rw [Database.sessionTextsOf, sessionRowsOf_onFile, ok_bind, List.mapM_map]
  exact mapM_eq_ok fun x _ => read_ofSession x

theorem sessionText?_onFile (id : SessionId) :
    (s.onFile l).sessionText? id = .ok ((s.sessions.find? id.key).map .ofSession) := by
  rw [Database.sessionText?, Database.understood_eq ((s.onFile_ready l).refusal_eq_none rfl),
    find?_sessions_onFile]
  cases s.sessions.find? id.key with
  | none => rfl
  | some x =>
      rw [Option.map_some, Option.mapM_some, read_ofSession]
      rfl

theorem entityTexts_onFile :
    (s.onFile l).entityTexts = .ok (s.entities.rows.map fun t => (t.id, t.kind.tag)) := by
  rw [Database.entityTexts, Database.understood_eq ((s.onFile_ready l).refusal_eq_none rfl)]
  show (s.entities.rows.map EntityRow.ofTarget).mapM _ = _
  rw [List.mapM_map]
  refine mapM_eq_ok fun t _ => ?_
  simp only [Function.comp_def, EntityRow.ofTarget, Cell.read_ofString, ok_bind]
  rfl

/-! ### The answers that are read -/

theorem mapM_parse (ts : List Target) :
    (ts.map fun t => (t.id, t.kind.tag)).mapM (fun (id, tag) => Target.parse id tag) = .ok ts := by
  rw [List.mapM_map]
  exact (mapM_eq_ok fun t _ => t.parse_tag).trans (congrArg _ (List.map_id ts))

theorem mapM_toSession {xs : List Session} (h : ∀ x ∈ xs, x.createdAt.InEra) :
    (xs.map SessionText.ofSession).mapM SessionText.toSession = .ok xs := by
  rw [List.mapM_map]
  exact (mapM_eq_ok fun x hx => toSession_ofSession (h x hx)).trans (congrArg _ (List.map_id xs))

theorem optionMapM_toSession {x : Option Session} (h : ∀ y, x = some y → y.createdAt.InEra) :
    (x.map SessionText.ofSession).mapM SessionText.toSession = .ok x := by
  cases x with
  | none => rfl
  | some y =>
      rw [Option.map_some, Option.mapM_some, toSession_ofSession (h y rfl)]
      rfl

end MemoryStore

end OwnershipRegistry
