import OwnershipRegistry.Proofs.Wire.Violations
import OwnershipRegistry.Wire.Config

/-!
Every record is decided by its fields. A configuration, which lets no other members pass,
is settled here; with the records that do, this gives the theorem about all of them.
-/

namespace OwnershipRegistry

open Json (Doc Spells)
open Wire

/-! ### Configurations -/

namespace StoreConfig

/-- The field of a name whose value is what was found there. -/
def valueSlot {α : Type} (name : String) (get : Draft → Option α) (put : α → Draft → Draft)
    (take : Found → Except Failure α) : Slot Draft :=
  slot name get put fun d => foundIn d >>= take

theorem slots_shape : shape.slots = [
    valueSlot "path" Draft.path (fun x s => { s with path := some x })
      (takeOptionalText "path string"),
    valueSlot "busy_timeout_ms" Draft.busyTimeoutMs (fun x s => { s with busyTimeoutMs := some x })
      takeCount,
    valueSlot "provision_backing_tables" Draft.provisionBacking
      (fun x s => { s with provisionBacking := some x }) takeFlag,
    valueSlot "journal_wal" Draft.writeAhead (fun x s => { s with writeAhead := some x })
      takeFlag] := by
  have hmap {α : Type} (take : Found → Except Failure α) (put : α → Draft → Draft) :
      (fun (d : Doc) (s : Draft) => foundIn d >>= fun f => (take f).map fun x => put x s) =
        fun d s => (foundIn d >>= take).map fun x => put x s := by
    funext d s
    cases foundIn d <;> rfl
  simp only [shape, fields, List.map_cons, List.map_nil, hmap]
  rfl

theorem orderless_shape : shape.Orderless Eq := by
  refine Shape.orderless_of_slots ?named ?respects ?apart <;>
    simp only [slots_shape, List.forall_mem_cons, List.pairwise_cons]
  case named => exact ⟨rfl, rfl, rfl, rfl, nofun⟩
  case respects =>
    refine ⟨?_, ?_, ?_, ?_, nofun⟩ <;> exact respects_slot fun _ _ => rfl
  case apart =>
    refine ⟨⟨?_, ?_, ?_, nofun⟩, ⟨?_, ?_, nofun⟩, ⟨?_, nofun⟩, nofun, .nil⟩ <;>
      exact apart_slots (fun _ _ => rfl) (fun _ _ => rfl) fun _ _ _ => rfl

variable {ms ms' : List (Doc × Doc)} {closed : Bool} {c : StoreConfig}

theorem ofDoc_object_eq_ok :
    form.ofDoc (.object ms closed) = .ok c ↔
      closed = true ∧ ∃ s, shape.readMembers ms {} = .ok s ∧ c = s.toConfig := by
  simp only [form, ofDoc, Except.bind_eq_ok, Shape.read_object_eq_ok]
  constructor
  · rintro ⟨s, ⟨hclosed, hread⟩, hs⟩
    cases hs
    exact ⟨hclosed, s, hread, rfl⟩
  · rintro ⟨hclosed, s, hread, rfl⟩
    exact ⟨s, ⟨hclosed, hread⟩, rfl⟩

theorem closedToOthers_form : form.ClosedToOthers where
  permuted hs hs' hperm hread := by
    rw [ofText_of_spells hs] at hread
    rw [ofText_of_spells hs']
    obtain ⟨-, s, hmembers, rfl⟩ := ofDoc_object_eq_ok.mp hread
    obtain ⟨t, hmembers', rfl⟩ := orderless_shape.readMembers_perm hperm hmembers
    exact ofDoc_object_eq_ok.mpr ⟨rfl, s, hmembers', rfl⟩
  refused hs hmem hname := by
    rw [ofText_of_spells hs]
    refine exists_error fun c hread => hname ?_
    obtain ⟨-, s, hmembers, -⟩ := ofDoc_object_eq_ok.mp hread
    exact Shape.mem_names_of_readMembers rfl hmembers hmem
  unrepeated hs hname htwice := by
    rw [ofText_of_spells hs]
    refine exists_error fun c hread => ?_
    obtain ⟨-, s, hmembers, -⟩ := ofDoc_object_eq_ok.mp hread
    exact orderless_shape.not_twice hname hmembers htwice

end StoreConfig

/-! ### All records -/

/-- Decoding depends on the fields alone. A text of an object is the joined texts of its
members. In the object of a target, an entity, a session, a report or a violation, and in
that of the target that it holds, the members may stand in any order and others may be
added, with names of no field and well-formed values, as long as at most 100 arrays and
objects lie in each other; in the object of a configuration they may stand in any order,
and others are refused. No field may stand there twice. -/
theorem decoding_by_fields :
    (∀ (s : String) (ms : List (Doc × Doc)), ms ≠ [] →
      (Spells s (.object ms true) ↔ ∃ lead parts trail, Json.Blank lead ∧ Json.Blank trail ∧
        s.toList = lead ++ (Json.objectText parts).toList ++ trail ∧
          List.Forall₂ Json.SpellsMember parts ms)) ∧
    Target.form.OpenToOthers ∧ entityForm.OpenToOthers ∧ Session.form.OpenToOthers ∧
      CascadeReport.form.OpenToOthers ∧ Violation.form.OpenToOthers ∧
      StoreConfig.form.ClosedToOthers :=
  ⟨fun _ _ => Json.spells_object_iff, Target.readBy_form.openToOthers,
    readBy_entityForm.openToOthers, Session.readBy_form.openToOthers,
    CascadeReport.readBy_form.openToOthers, Violation.openToOthers_form,
    StoreConfig.closedToOthers_form⟩

/-- The members of a target, the identifier first and another among them. -/
def Target.shuffled : List (String × Doc) := [
  ("target_id", .ofString "a"), ("note", .ofList [.bool true]), ("target_type", .ofString "bot")]

/-- The members of a violation about that target, the kind last and another among them. -/
def Violation.shuffled : List (String × Doc) :=
  [("session", .null), ("target", .record Target.shuffled), ("kind", .ofString "orphan_entity")]

/-- The members of the same violation as they are written. -/
def Violation.ordered : List (String × Doc) :=
  [("kind", .ofString "orphan_entity"), ("target", (⟨.bot, "a"⟩ : Target).toDoc)]

theorem Target.rearranged_shuffled :
    Rearranged IsField Eq
      (Doc.members [("target_type", .ofString "bot"), ("target_id", .ofString "a")])
      (Doc.members shuffled) := by
  refine ⟨_, Doc.members [("note", .ofList [.bool true])], ?_, List.forall₂_refl _, ?_⟩
  · exact @List.perm_append_comm _ (Doc.members (shuffled.take 2)) _
  · rintro m hm
    obtain rfl := List.mem_singleton.mp hm
    refine ⟨"note", rfl, by simp [IsField], .array _ fun d hd => ?_⟩
    obtain rfl := List.mem_singleton.mp hd
    exact .bool true

theorem Violation.rearranged_shuffled :
    Rearranged (form.IsField (Doc.members ordered)) (Alike form.targets) (Doc.members ordered)
      (Doc.members shuffled) := by
  refine ⟨(Doc.members shuffled).reverse.take 2, Doc.members [("session", .null)],
    (List.reverse_perm _).symm, ?_, ?_⟩
  · exact .cons (.same _) (.cons (.target (by decide) Target.rearranged_shuffled) .nil)
  · rintro m hm
    obtain rfl := List.mem_singleton.mp hm
    refine ⟨"session", rfl, ?_, .null⟩
    simp [form, ordered, Doc.members, Doc.ofString, Target.toDoc, Subject.tag]

theorem Violation.plain_shuffled : (Doc.record shuffled).Plain := by
  have hnote : (Doc.ofList [.bool true]).Plain := .array _ fun d hd => by
    obtain rfl := List.mem_singleton.mp hd
    exact .bool true
  have htarget : (Doc.record Target.shuffled).Plain := by
    refine .record _ ?_
    simp only [Target.shuffled, List.forall_mem_cons]
    exact ⟨.string _, hnote, .string _, nofun⟩
  refine .record _ ?_
  simp only [shuffled, List.forall_mem_cons]
  exact ⟨.null, htarget, .string _, nofun⟩

/-- The shuffled violation is read like the one that is written; a configuration with an
unknown field is not read, and neither is a target with two identifiers. -/
theorem decoding_by_fields_shuffled :
    ofText Violation.form.ofDoc (Doc.record Violation.shuffled).text =
      .ok (.orphanEntity ⟨.bot, "a"⟩) ∧
    (∃ e, ofText StoreConfig.form.ofDoc (Doc.record [("file", .null)]).text = .error e) ∧
    ∃ e, ofText Target.form.ofDoc (Doc.record [("target_id", .ofString "a"),
      ("target_type", .ofString "bot"), ("target_id", .ofString "a")]).text = .error e := by
  obtain ⟨-, htarget, -, -, -, hviolation, hconfig⟩ := decoding_by_fields
  refine ⟨?_, ?_, ?_⟩
  · have hplain : (Doc.record Violation.ordered).Plain :=
      Violation.plain_toDoc (.orphanEntity ⟨.bot, "a"⟩)
    have hordered : ofText Violation.form.ofDoc (Doc.record Violation.ordered).text =
        .ok (.orphanEntity ⟨.bot, "a"⟩) :=
      ofText_text hplain (Violation.ofDoc_toDoc (.orphanEntity ⟨.bot, "a"⟩))
    exact hviolation.rearranged hplain.spells Violation.plain_shuffled.spells
      Violation.rearranged_shuffled (by decide) hordered
  · have hplain : (Doc.record [("file", .null)]).Plain := by
      refine .record _ ?_
      simp only [List.forall_mem_cons]
      exact ⟨.null, nofun⟩
    exact hconfig.refused hplain.spells (List.mem_singleton_self _) (by simp [StoreConfig.form])
  · have hplain : (Doc.record [("target_id", .ofString "a"), ("target_type", .ofString "bot"),
        ("target_id", .ofString "a")]).Plain := by
      refine .record _ ?_
      simp only [List.forall_mem_cons]
      exact ⟨.string _, .string _, .string _, nofun⟩
    exact htarget.unrepeated hplain.spells (List.mem_cons_of_mem _ List.mem_cons_self)
      ⟨[], _, [_], _, [], rfl⟩

end OwnershipRegistry
