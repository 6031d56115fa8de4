import OwnershipRegistry.Proofs.Wire.Forms
import OwnershipRegistry.Proofs.Wire.RoundTrip

/-!
Violations are decided by their fields. The members of a violation are kept until its kind
is known, and read as what is said about that kind of subject only then: so the member of
the kind is split from the others, and what is added must be fit to be kept.
-/

namespace OwnershipRegistry

open Json (Doc)
open Wire

namespace Violation

/-- What was kept about a subject, read as a record. -/
def keptForm (k : Subject) : Form Violation where
  ofDoc d := ofKept d k
  IsField _ name :=
    match k with
    | .entity => name ∈ ["target"]
    | .session => name ∈ ["session", "target"]
  targets := ["target"]

theorem orderless_entityShape : entityShape.Orderless Eq := by
  refine Shape.orderless_of_slots ?named ?respects (List.pairwise_singleton _ _) <;>
    simp only [entityShape, List.forall_mem_cons]
  case named => exact ⟨rfl, nofun⟩
  case respects => exact ⟨respects_slot fun _ _ => rfl, nofun⟩

theorem orderless_sessionShape : sessionShape.Orderless Eq := by
  refine Shape.orderless_of_slots ?named ?respects ?apart <;>
    simp only [sessionShape, List.forall_mem_cons, List.pairwise_cons]
  case named => exact ⟨rfl, rfl, nofun⟩
  case respects => exact ⟨respects_slot fun _ _ => rfl, respects_slot fun _ _ => rfl, nofun⟩
  case apart =>
    exact ⟨⟨apart_slots (fun _ _ => rfl) (fun _ _ => rfl) fun _ _ _ => rfl, nofun⟩,
      nofun, .nil⟩

theorem readBy_entity : (keptForm .entity).ReadBy entityShape Eq where
  orderless := orderless_entityShape
  others_pass := rfl
  fields _ _ := .rfl
  targets := by
    simp only [keptForm, List.forall_mem_cons]
    exact ⟨⟨_, _, _, rfl⟩, nofun⟩
  reads := ⟨_, _, _, fun _ => rfl, fun _ _ h => h ▸ rfl⟩

theorem readBy_session : (keptForm .session).ReadBy sessionShape Eq where
  orderless := orderless_sessionShape
  others_pass := rfl
  fields _ _ := .rfl
  targets := by
    simp only [keptForm, List.forall_mem_cons]
    exact ⟨⟨_, _, _, rfl⟩, nofun⟩
  reads := ⟨_, _, _, fun _ => rfl, fun _ _ h => h ▸ rfl⟩

theorem exists_readBy (k : Subject) :
    ∃ (σ : Type) (shape : Shape σ), (keptForm k).ReadBy shape Eq := by
  cases k with
  | entity => exact ⟨_, _, readBy_entity⟩
  | session => exact ⟨_, _, readBy_session⟩

/-- The member that tells the kind. -/
def isTag (m : Doc × Doc) : Bool :=
  match m.1 with
  | .string (some key) => key == "kind"
  | _ => false

theorem isTag_iff {m : Doc × Doc} : isTag m = true ↔ m.1 = .ofString "kind" := by
  rw [isTag, Doc.ofString]
  split
  · rename_i key hkey
    simp [hkey]
  · rename_i hkey
    simpa using hkey "kind"

theorem isTag_of_ne {name : String} (h : name ≠ "kind") (d : Doc) :
    isTag (.ofString name, d) = false :=
  beq_eq_false_iff_ne.mpr h

/-- Members that can be split: they have keys, and all but the kind can be kept. -/
def Keepable (source : Source) (m : Doc × Doc) : Prop :=
  ∃ key, m.1 = .ofString key ∧ (key ≠ "kind" → keep source m.2 = .ok m.2)

/-- What is known of the subject after the members that tell it; none is told twice. -/
def Told : Option Subject → List (Doc × Doc) → Option Subject → Prop
  | s, [], s' => s' = s
  | s, m :: ms, s' => s = none ∧ ∃ k, Subject.ofDoc m.2 = .ok k ∧ Told (some k) ms s'

variable {source : Source} {ms ms' rest : List (Doc × Doc)} {s s' : Option Subject} {k : Subject}
  {v : Violation}

theorem readMembers_tag_eq_ok {d : Doc} :
    readMembers source ((.ofString "kind", d) :: ms) s = .ok (s', rest) ↔
      s = none ∧ ∃ k, Subject.ofDoc d = .ok k ∧
        readMembers source ms (some k) = .ok (s', rest) := by
  simp only [Doc.ofString, readMembers, if_pos]
  cases s with
  | none =>
    simp only [Option.isSome_none, Bool.false_eq_true, if_false, Except.bind_eq_ok, true_and]
  | some k =>
    simp only [Option.isSome_some, if_true, reduceCtorEq, false_and, iff_false]
    intro h
    cases h

theorem readMembers_other_eq_ok {name : String} {d : Doc} (hname : name ≠ "kind") :
    readMembers source ((.ofString name, d) :: ms) s = .ok (s', rest) ↔
      keep source d = .ok d ∧ ∃ others, rest = (.ofString name, d) :: others ∧
        readMembers source ms s = .ok (s', others) := by
  simp only [Doc.ofString, readMembers, if_neg hname, Except.bind_eq_ok]
  constructor
  · rintro ⟨d', hkeep, ⟨s'', others⟩, hread, hrest⟩
    obtain rfl := keep_eq_ok hkeep
    cases hrest
    exact ⟨hkeep, others, rfl, hread⟩
  · rintro ⟨hkeep, others, rfl, hread⟩
    exact ⟨d, hkeep, (s', others), hread, rfl⟩

theorem readMembers_keyless {key d : Doc} (hkey : ¬ ∃ name, key = .ofString name) :
    readMembers source ((key, d) :: ms) s = .error .syntaxError := by
  rw [readMembers]
  intro name _ heq
  exact hkey ⟨name, congrArg Prod.fst heq⟩

/-- The members are split into the one that tells the kind and the others, which keep
their order. -/
theorem readMembers_eq_ok :
    readMembers source ms s = .ok (s', rest) ↔
      (∀ m ∈ ms, Keepable source m) ∧ rest = ms.filter (!isTag ·) ∧
        Told s (ms.filter isTag) s' := by
  induction ms generalizing s rest with
  | nil => simp [readMembers, Told, and_comm, eq_comm]
  | cons m ms ih =>
    obtain ⟨key, d⟩ := m
    rw [List.forall_mem_cons]
    by_cases hkey : ∃ name, key = .ofString name
    · obtain ⟨name, rfl⟩ := hkey
      by_cases hname : name = "kind"
      · subst hname
        have hkeep : Keepable source (.ofString "kind", d) := ⟨"kind", rfl, (absurd rfl ·)⟩
        have htag : isTag (.ofString "kind", d) = true := rfl
        simp only [readMembers_tag_eq_ok, List.filter_cons, htag, Bool.not_true, if_true,
          Bool.false_eq_true, if_false, ih, Told, hkeep, true_and]
        constructor
        · rintro ⟨hnone, k, hk, hms, hrest, htold⟩
          exact ⟨hms, hrest, hnone, k, hk, htold⟩
        · rintro ⟨hms, hrest, hnone, k, hk, htold⟩
          exact ⟨hnone, k, hk, hms, hrest, htold⟩
      · simp only [readMembers_other_eq_ok hname, List.filter_cons, isTag_of_ne hname,
          Bool.not_false, if_true, Bool.false_eq_true, if_false, ih]
        constructor
        · rintro ⟨hkeep, others, rfl, hms, rfl, htold⟩
          exact ⟨⟨⟨name, rfl, fun _ => hkeep⟩, hms⟩, rfl, htold⟩
        · rintro ⟨⟨⟨name', heq, hkeep⟩, hms⟩, rfl, htold⟩
          cases heq
          exact ⟨hkeep hname, _, rfl, hms, rfl, htold⟩
    · constructor
      · intro h
        rw [readMembers_keyless hkey] at h
        cases h
      · rintro ⟨⟨⟨name, hname, -⟩, -⟩, -⟩
        exact absurd ⟨name, hname⟩ hkey

theorem told_none {l : List (Doc × Doc)} :
    Told none l (some k) ↔ ∃ m, l = [m] ∧ Subject.ofDoc m.2 = .ok k := by
  match l with
  | [] => simp [Told]
  | [m] => simp [Told, eq_comm]
  | m :: m' :: l => simp [Told]

/-- A violation is read just if one member tells its kind and the others, which can all
be kept, say what is said about such a subject. -/
theorem ofDoc_object_eq_ok {closed : Bool} :
    ofDoc source (.object ms closed) = .ok v ↔
      closed = true ∧ (∀ m ∈ ms, Keepable source.inner m) ∧
        ∃ k m, ms.filter isTag = [m] ∧ Subject.ofDoc m.2 = .ok k ∧
          (keptForm k).ofDoc (.object (ms.filter (!isTag ·)) true) = .ok v := by
  simp only [ofDoc, Except.bind_eq_ok]
  constructor
  · rintro ⟨⟨subject, rest⟩, hread, htail⟩
    obtain ⟨hms, rfl, htold⟩ := readMembers_eq_ok.mp hread
    cases closed with
    | false => cases htail
    | true =>
      obtain ⟨k, hk, hkept⟩ := Except.bind_eq_ok.mp htail
      cases subject with
      | none => cases hk
      | some k' =>
        cases hk
        obtain ⟨m, hm, hsubject⟩ := told_none.mp htold
        exact ⟨rfl, hms, k, m, hm, hsubject, hkept⟩
  · rintro ⟨rfl, hms, k, m, hm, hsubject, hkept⟩
    have htold : Told none (ms.filter isTag) (some k) := told_none.mpr ⟨m, hm, hsubject⟩
    exact ⟨(some k, _), readMembers_eq_ok.mpr ⟨hms, rfl, htold⟩, hkept⟩

/-! ### The kind and the others -/

theorem Subject.ofDoc_eq_ok {d : Doc} : Subject.ofDoc d = .ok k ↔ d = .ofString k.tag := by
  constructor
  · intro h
    obtain ⟨tag, htag, hfind⟩ := Except.bind_eq_ok.mp h
    obtain rfl := readString_eq_ok htag
    split at hfind
    · rename_i k' hk'
      cases hfind
      have heq : k.tag = tag := by simpa using List.find?_some hk'
      rw [heq]
    · cases hfind
  · rintro rfl
    exact Subject.ofDoc_tag k

theorem isTag_alike {m m' : Doc × Doc} (h : Alike form.targets m m') : isTag m' = isTag m := by
  cases h <;> rfl

theorem eq_of_alike_tag {m m' : Doc × Doc} (h : Alike form.targets m m') (htag : isTag m = true) :
    m' = m := by
  cases h with
  | same => rfl
  | target hname =>
    cases List.mem_singleton.mp hname
    cases htag

/-- No other kind is told by rearranged members. -/
theorem filter_isTag_rearranged {m : Doc × Doc} (hm : ms.filter isTag = [m])
    (hre : Rearranged (form.IsField ms) (Alike form.targets) ms ms') :
    ms'.filter isTag = [m] := by
  obtain ⟨kept, added, hperm, hkept, hadded⟩ := hre
  have hnone : added.filter isTag = [] := by
    refine List.filter_eq_nil_iff.mpr fun a ha htag => ?_
    obtain ⟨name, hkey, hname, -⟩ := hadded a ha
    rw [isTag_iff, hkey] at htag
    cases htag
    exact hname (.inl rfl)
  have htags : List.Forall₂ (Alike form.targets) [m] (kept.filter isTag) := by
    rw [← hm]
    exact List.rel_filter (fun m m' h => by simp only [isTag_alike h]) hkept
  have htag : isTag m = true := (List.mem_filter.mp (hm ▸ List.mem_singleton_self m)).2
  obtain ⟨m', rest, halike, hrest, heq⟩ := List.forall₂_cons_left_iff.mp htags
  cases hrest
  obtain rfl := eq_of_alike_tag halike htag
  have hfilter := hperm.filter isTag
  rw [List.filter_append, hnone, List.append_nil, heq] at hfilter
  exact List.perm_singleton.mp hfilter

/-- The fields of an object are its kind and those of what is said about the subject. -/
theorem isField_iff {m : Doc × Doc} (hm : ms.filter isTag = [m]) (hk : Subject.ofDoc m.2 = .ok k)
    {name : String} :
    form.IsField ms name ↔
      name = "kind" ∨ (keptForm k).IsField (ms.filter (!isTag ·)) name := by
  have htag : isTag m = true := (List.mem_filter.mp (hm ▸ List.mem_singleton_self m)).2
  have hmem : m ∈ ms := (List.mem_filter.mp (hm ▸ List.mem_singleton_self m)).1
  have hm_eq : m = (.ofString "kind", .ofString k.tag) :=
    Prod.ext (isTag_iff.mp htag) (Subject.ofDoc_eq_ok.mp hk)
  cases k with
  | entity =>
    have hnone : (.ofString "kind", .ofString Subject.session.tag) ∉ ms := by
      intro h
      have h' : (.ofString "kind", .ofString Subject.session.tag) ∈ ms.filter isTag :=
        List.mem_filter.mpr ⟨h, rfl⟩
      rw [hm, hm_eq] at h'
      simp [Doc.ofString, Subject.tag] at h'
    simp [form, keptForm, hnone]
  | session =>
    have hsome : (.ofString "kind", .ofString Subject.session.tag) ∈ ms := hm_eq ▸ hmem
    simp only [form, keptForm, hsome, and_true, List.mem_cons, List.not_mem_nil, or_false,
      or_comm (a := name = "target")]

theorem isKept_of_keep {depth : Nat} {d : Doc} :
    keep (.text depth) d = .ok d ↔ d.isKept depth = true := by
  rw [keep]
  split
  · simp [*]
  · simp [*]

/-- Whatever is added can be kept, and so can a target that is rearranged. -/
theorem keepable_rearranged (hms : ∀ m ∈ ms, Keepable (Source.text keptDepth).inner m)
    (hre : Rearranged (form.IsField ms) (Alike form.targets) ms ms')
    (hnesting : (Doc.object ms' true).nesting ≤ 100) :
    ∀ m ∈ ms', Keepable (Source.text keptDepth).inner m := by
  have hdepth : (Source.text keptDepth).inner = .text 126 := rfl
  rw [hdepth] at hms ⊢
  refine hre.forall_mem ?_ ?_ hms
  · rintro m m' hmem halike ⟨key, hkey, hkeep⟩
    cases halike with
    | same => exact ⟨key, hkey, hkeep⟩
    | target hname hinner =>
      have hlt : (Doc.object _ true).nesting < (Doc.object ms' true).nesting :=
        Doc.nesting_lt_of_mem hmem
      refine ⟨key, hkey, fun hother => isKept_of_keep.mpr ?_⟩
      exact hinner.isKept (isKept_of_keep.mp (hkeep hother)) (by omega)
  · intro name d hmem hwell
    have hlt : d.nesting < (Doc.object ms' true).nesting := Doc.nesting_lt_of_mem hmem
    exact ⟨name, rfl, fun _ => isKept_of_keep.mpr (hwell.isKept (by omega))⟩

theorem ofDoc_rearranged (hre : Rearranged (form.IsField ms) (Alike form.targets) ms ms')
    (hnesting : (Doc.object ms' true).nesting ≤ 100)
    (hread : form.ofDoc (.object ms true) = .ok v) : form.ofDoc (.object ms' true) = .ok v := by
  obtain ⟨-, hms, k, m, hm, hk, hkept⟩ := ofDoc_object_eq_ok.mp hread
  obtain ⟨σ, shape, hreadBy⟩ := exists_readBy k
  have hrest : Rearranged ((keptForm k).IsField (ms.filter (!isTag ·)))
      (Alike (keptForm k).targets) (ms.filter (!isTag ·)) (ms'.filter (!isTag ·)) := by
    refine Rearranged.mono (hre.filter (fun m m' h => by simp only [isTag_alike h]) ?_)
      fun name hname => (isField_iff hm hk).mpr (.inr hname)
    intro name d hname
    rw [isTag_of_ne (fun heq => hname (.inl heq)) d]
    rfl
  exact ofDoc_object_eq_ok.mpr ⟨rfl, keepable_rearranged hms hre hnesting, k, m,
    filter_isTag_rearranged hm hre, hk, hreadBy.ofDoc_rearranged hrest hkept⟩

theorem not_twice {closed : Bool} {name : String} (hread : form.ofDoc (.object ms closed) = .ok v)
    (hname : form.IsField ms name) : ¬ Twice name ms := by
  obtain ⟨-, hms, k, m, hm, hk, hkept⟩ := ofDoc_object_eq_ok.mp hread
  obtain ⟨σ, shape, hreadBy⟩ := exists_readBy k
  intro htwice
  by_cases hkind : name = "kind"
  · subst hkind
    have htags : Twice "kind" (ms.filter isTag) := htwice.filter fun _ => rfl
    rw [hm] at htags
    exact not_twice_singleton htags
  · have hfield := ((isField_iff hm hk).mp hname).resolve_left hkind
    exact hreadBy.not_twice hkept hfield (htwice.filter fun d => by rw [isTag_of_ne hkind d]; rfl)

theorem not_twice_target {inner : List (Doc × Doc)} {closed closed' : Bool} {name part : String}
    (hread : form.ofDoc (.object ms closed) = .ok v) (hname : name ∈ form.targets)
    (hmem : (.ofString name, .object inner closed') ∈ ms) (hpart : Target.IsField part) :
    ¬ Twice part inner := by
  obtain ⟨-, hms, k, m, hm, hk, hkept⟩ := ofDoc_object_eq_ok.mp hread
  obtain ⟨σ, shape, hreadBy⟩ := exists_readBy k
  refine hreadBy.not_twice_target hkept hname (List.mem_filter.mpr ⟨hmem, ?_⟩) hpart
  cases List.mem_singleton.mp hname
  rfl

theorem openToOthers_form : form.OpenToOthers :=
  Form.openToOthers ofDoc_rearranged not_twice not_twice_target

end Violation

end OwnershipRegistry
