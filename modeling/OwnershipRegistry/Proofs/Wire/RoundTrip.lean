import OwnershipRegistry.Proofs.Json.Reader
import OwnershipRegistry.Proofs.Outcome
import OwnershipRegistry.Wire.Cascade
import OwnershipRegistry.Wire.Config

/-!
Records, written and read back. What is written for a record is a plain value, so its
text is read as that value, and the reading of the value meets every field that it
asks for, once and in the order in which it was written.
-/

namespace OwnershipRegistry

open Json (Doc)
open Wire

namespace Wire

/-- The text of a plain value is read as whatever the value is read as. -/
theorem ofText_text {α : Type} {read : Doc → Except Failure α} {d : Doc} {x : α}
    (hplain : d.Plain) (hread : read d = .ok x) : ofText read d.text = .ok x := by
  rw [ofText, Doc.text, String.toList_ofList, hplain.read_render]
  simp only [hread]
  rfl

variable {σ α : Type} {shape : Shape σ} {s s' : σ} {key : String} {d : Doc}

/-! ### Fields in order -/

/-- A field that has not been read yet is read where it stands. -/
theorem Shape.readMembers_cons {field : Slot σ} {ms : List (Doc × Doc)}
    (hfield : shape.slots.find? (·.name == key) = some field) (hset : field.isSet s = false)
    (hread : field.set d s = .ok s') :
    shape.readMembers ((.ofString key, d) :: ms) s = shape.readMembers ms s' := by
  simp only [Doc.ofString, readMembers, hfield, hset, hread]
  rfl

theorem Shape.read_record {source : Source} {ms : List (String × Doc)}
    (h : shape.readMembers (Doc.members ms) s = .ok s') :
    shape.read source s (.record ms) = .ok s' := by
  have hmembers : Doc.record ms = .object (Doc.members ms) true := rfl
  rw [hmembers, Shape.read, h]
  rfl

theorem slot_set {name : String} {get : σ → Option α} {put : α → σ → σ}
    {read : Doc → Except Failure α} {x : α} (h : read d = .ok x) (s : σ) :
    (slot name get put read).set d s = .ok (put x s) := by
  simp only [slot, h]
  rfl

theorem readFlag_bool (b : Bool) : readFlag (.bool b) = .ok b := rfl

end Wire

/-! ### Kinds, identifiers and targets -/

theorem Kind.ofDoc_toDoc (source : Source) (k : Kind) : ofDoc source k.toDoc = .ok k := by
  cases k <;> rfl

theorem Target.plain_toDoc (t : Target) : t.toDoc.Plain := by
  refine .record _ ?_
  simp only [List.forall_mem_cons]
  exact ⟨.string _, .string _, nofun⟩

/-- The kind comes first, so the identifier need not be kept. -/
theorem Target.ofDoc_toDoc (source : Source) (t : Target) : ofDoc source t.toDoc = .ok t := by
  obtain ⟨k, id⟩ := t
  cases k <;> rfl

theorem SessionId.ofDoc_toDoc (id : SessionId) : ofDoc id.toDoc = .ok id := rfl

theorem plain_entityToDoc (t : Target) : (entityToDoc t).Plain := by
  refine .record _ ?_
  simp only [List.forall_mem_cons]
  exact ⟨t.plain_toDoc, nofun⟩

theorem entityOfDoc_entityToDoc (source : Source) (t : Target) :
    entityOfDoc source (entityToDoc t) = .ok t := by
  have hread : (entityShape source).read source none (entityToDoc t) = .ok (some t) := by
    refine Shape.read_record ?_
    exact (Shape.readMembers_cons rfl rfl (slot_set (Target.ofDoc_toDoc _ t) _)).trans rfl
  rw [entityOfDoc, hread]
  rfl

/-! ### Reports -/

namespace CascadeReport

theorem plain_toDoc (r : CascadeReport) : r.toDoc.Plain := by
  have hsessions : (Doc.ofList (r.sessionsRemoved.map SessionId.toDoc)).Plain := by
    refine .array _ fun d hd => ?_
    obtain ⟨id, -, rfl⟩ := List.mem_map.mp hd
    exact .string _
  refine .record _ ?_
  simp only [List.forall_mem_cons]
  exact ⟨r.target.plain_toDoc, .bool _, .bool _, hsessions, nofun⟩

theorem readSessions_toDoc (ids : List SessionId) :
    readSessions (.ofList (ids.map SessionId.toDoc)) = .ok ids := by
  have hitems : (ids.map SessionId.toDoc).mapM SessionId.ofDoc = .ok ids := by
    induction ids with
    | nil => rfl
    | cons id ids ih =>
        rw [List.map_cons, List.mapM_cons, SessionId.ofDoc_toDoc, Except.ok_bind, ih]
        rfl
  simp only [Doc.ofList, readSessions, hitems]
  rfl

theorem ofDoc_toDoc (source : Source) (r : CascadeReport) : ofDoc source r.toDoc = .ok r := by
  have hread : (shape source).read source {} r.toDoc =
      .ok ⟨some r.target, some r.backingRemoved, some r.entityRemoved,
        some r.sessionsRemoved⟩ := by
    refine Shape.read_record ?_
    refine (Shape.readMembers_cons rfl rfl (slot_set (Target.ofDoc_toDoc _ _) _)).trans ?_
    refine (Shape.readMembers_cons rfl rfl (slot_set (readFlag_bool _) _)).trans ?_
    refine (Shape.readMembers_cons rfl rfl (slot_set (readFlag_bool _) _)).trans ?_
    exact (Shape.readMembers_cons rfl rfl (slot_set (readSessions_toDoc _) _)).trans rfl
  rw [ofDoc, hread]
  rfl

end CascadeReport

/-! ### Violations -/

namespace Violation

theorem plain_toDoc (v : Violation) : v.toDoc.Plain := by
  cases v with
  | orphanEntity t =>
      refine .record _ ?_
      simp only [List.forall_mem_cons]
      exact ⟨.string _, t.plain_toDoc, nofun⟩
  | orphanSession id t =>
      refine .record _ ?_
      simp only [List.forall_mem_cons]
      exact ⟨.string _, .string _, t.plain_toDoc, nofun⟩

theorem Subject.ofDoc_tag (s : Subject) : Subject.ofDoc (.ofString s.tag) = .ok s := by
  cases s <;> rfl

theorem isKept_target (t : Target) (depth : Nat) : t.toDoc.isKept (depth + 1) = true := rfl

theorem readMembers_tag (source : Source) (s : Subject) (ms : List (Doc × Doc)) :
    readMembers source ((.ofString "kind", .ofString s.tag) :: ms) none =
      readMembers source ms (some s) := by
  simp only [Doc.ofString, readMembers]
  rw [← Doc.ofString, Subject.ofDoc_tag]
  rfl

theorem readMembers_kept {key : String} (hkey : key ≠ "kind") {depth : Nat} {d : Doc}
    (hd : d.isKept depth = true) {ms : List (Doc × Doc)} {s s' : Option Subject}
    {rest : List (Doc × Doc)} (h : readMembers (.text depth) ms s = .ok (s', rest)) :
    readMembers (.text depth) ((.ofString key, d) :: ms) s =
      .ok (s', (.ofString key, d) :: rest) := by
  simp only [Doc.ofString, readMembers, if_neg hkey, keep, hd, h]
  rfl

/-- The tag comes first, and what follows it is kept until all has been seen. -/
theorem ofDoc_toDoc (v : Violation) : ofDoc (.text keptDepth) v.toDoc = .ok v := by
  have htarget : "target" ≠ "kind" := by decide
  have hsession : "session" ≠ "kind" := by decide
  cases v with
  | orphanEntity t =>
      have hmembers : readMembers (Source.text keptDepth).inner (Doc.members
          [("kind", .ofString Subject.entity.tag), ("target", t.toDoc)]) none =
          .ok (some .entity, Doc.members [("target", t.toDoc)]) :=
        (readMembers_tag _ .entity _).trans (readMembers_kept htarget (isKept_target t _) rfl)
      have hread : entityShape.read .kept none (.object (Doc.members [("target", t.toDoc)]) true) =
          .ok (some t) :=
        Shape.read_record (Shape.readMembers_cons rfl rfl (slot_set (Target.ofDoc_toDoc _ t) _))
      have hkept : ofKept (.object (Doc.members [("target", t.toDoc)]) true) .entity =
          .ok (.orphanEntity t) := by
        rw [ofKept, hread]
        rfl
      rw [toDoc, Doc.record, ofDoc, ← Doc.members, hmembers]
      exact hkept
  | orphanSession id t =>
      have hmembers : readMembers (Source.text keptDepth).inner (Doc.members
          [("kind", .ofString Subject.session.tag), ("session", id.toDoc),
            ("target", t.toDoc)]) none =
          .ok (some .session, Doc.members [("session", id.toDoc), ("target", t.toDoc)]) :=
        (readMembers_tag _ .session _).trans
          (readMembers_kept hsession rfl (readMembers_kept htarget (isKept_target t _) rfl))
      have hread : sessionShape.read .kept {}
          (.object (Doc.members [("session", id.toDoc), ("target", t.toDoc)]) true) =
          .ok ⟨some id, some t⟩ :=
        Shape.read_record
          ((Shape.readMembers_cons rfl rfl (slot_set (SessionId.ofDoc_toDoc id) _)).trans
            (Shape.readMembers_cons rfl rfl (slot_set (Target.ofDoc_toDoc _ t) _)))
      have hkept : ofKept (.object (Doc.members [("session", id.toDoc), ("target", t.toDoc)]) true)
          .session = .ok (.orphanSession id t) := by
        rw [ofKept, hread]
        rfl
      rw [toDoc, Doc.record, ofDoc, ← Doc.members, hmembers]
      exact hkept

end Violation

/-! ### Configurations -/

namespace StoreConfig

theorem plain_toDoc (c : StoreConfig) : c.toDoc.Plain := by
  have hpath : ((c.path.map Doc.ofString).getD .null).Plain := by
    cases c.path with
    | none => exact .null
    | some path => exact .string path
  refine .record _ ?_
  simp only [List.forall_mem_cons]
  exact ⟨hpath, .natural _, .bool _, .bool _, nofun⟩

theorem foundIn_number (n : UInt64) :
    foundIn (.number (.ofNat n.toNat)) = .ok (.integer n.toNat) := by
  simp only [foundIn, Json.Numeral.value?_ofNat n.toNat_lt]

theorem takeCount_toNat (n : UInt64) : takeCount (.integer n.toNat) = .ok n := by
  have hfits : 0 ≤ (n.toNat : Int) ∧ (n.toNat : Int) < 2 ^ 64 := by
    have hlt := n.toNat_lt
    omega
  simp only [takeCount, if_pos hfits, Int.toNat_natCast, UInt64.ofNat_toNat]

/-- What is found for the path is that there is none, or the path. -/
theorem takePath (path : Option String) (s : Draft) :
    (do
      let f ← foundIn ((path.map Doc.ofString).getD .null)
      (takeOptionalText "path string" f).map fun x => { s with path := some x }) =
      .ok { s with path := some path } := by
  cases path <;> rfl

theorem takeTimeout (timeout : UInt64) (s : Draft) :
    (do
      let f ← foundIn (.number (.ofNat timeout.toNat))
      (takeCount f).map fun x => { s with busyTimeoutMs := some x }) =
      .ok { s with busyTimeoutMs := some timeout } := by
  rw [foundIn_number, Except.ok_bind, takeCount_toNat]
  rfl

theorem ofDoc_toDoc (source : Source) (c : StoreConfig) : ofDoc source c.toDoc = .ok c := by
  have hread : shape.read source {} c.toDoc =
      .ok ⟨some c.path, some c.busyTimeoutMs, some c.provisionBacking, some c.writeAhead⟩ := by
    refine Shape.read_record ?_
    refine (Shape.readMembers_cons rfl rfl (takePath c.path _)).trans ?_
    refine (Shape.readMembers_cons rfl rfl (takeTimeout c.busyTimeoutMs _)).trans ?_
    exact (Shape.readMembers_cons rfl rfl rfl).trans (Shape.readMembers_cons rfl rfl rfl)
  rw [ofDoc, hread]
  rfl

end StoreConfig

/-! ### Texts -/

/-- Every value that is written is read back as itself, from the text of what was written:
kinds, identifiers, targets, entities, reports, violations and configurations, whatever
characters are in their strings, however many sessions a report names and however long a
configuration waits. -/
theorem written_read_back :
    (∀ k : Kind, ofText (Kind.ofDoc (.text keptDepth)) k.toDoc.text = .ok k) ∧
    (∀ id : String, ofText (readString "a string") (idToDoc id).text = .ok id) ∧
    (∀ id : SessionId, ofText SessionId.ofDoc id.toDoc.text = .ok id) ∧
    (∀ t : Target, ofText (Target.ofDoc (.text keptDepth)) t.toDoc.text = .ok t) ∧
    (∀ t : Target, ofText (entityOfDoc (.text keptDepth)) (entityToDoc t).text = .ok t) ∧
    (∀ r : CascadeReport,
      ofText (CascadeReport.ofDoc (.text keptDepth)) r.toDoc.text = .ok r) ∧
    (∀ v : Violation, ofText (Violation.ofDoc (.text keptDepth)) v.toDoc.text = .ok v) ∧
    ∀ c : StoreConfig, ofText (StoreConfig.ofDoc (.text keptDepth)) c.toDoc.text = .ok c :=
  ⟨fun k => ofText_text (.string _) (k.ofDoc_toDoc _),
    fun _ => ofText_text (.string _) rfl,
    fun id => ofText_text (.string _) id.ofDoc_toDoc,
    fun t => ofText_text t.plain_toDoc (t.ofDoc_toDoc _),
    fun t => ofText_text (plain_entityToDoc t) (entityOfDoc_entityToDoc _ t),
    fun r => ofText_text r.plain_toDoc (r.ofDoc_toDoc _),
    fun v => ofText_text v.plain_toDoc v.ofDoc_toDoc,
    fun c => ofText_text c.plain_toDoc (c.ofDoc_toDoc _)⟩

end OwnershipRegistry
