import OwnershipRegistry.Proofs.Json.Texts
import OwnershipRegistry.Proofs.Wire.Members
import OwnershipRegistry.Wire.Cascade
import OwnershipRegistry.Wire.Config

/-!
What it means that a record is decided by its fields: the members of its object may stand
in any order, and members that are no fields may stand among them, in the record as in
the target that it holds, while a field may not stand there twice. Proved of targets and
of the records that a shape reads member by member.
-/

namespace OwnershipRegistry

open Json (Doc Spells)

namespace Wire

variable {σ α : Type}

/-! ### Texts and forms -/

/-- The members of an object, each as it was or in a form that is alike, in any order
and among others that are well-formed and are no fields. -/
def Rearranged (isField : String → Prop) (alike : Doc × Doc → Doc × Doc → Prop)
    (ms ms' : List (Doc × Doc)) : Prop :=
  ∃ kept added, ms'.Perm (kept ++ added) ∧ List.Forall₂ alike ms kept ∧
    ∀ m ∈ added, ∃ name, m.1 = .ofString name ∧ ¬ isField name ∧ m.2.WellFormed

/-- How a record is read, and which names are those of its fields. -/
structure Form (α : Type) where
  ofDoc : Doc → Except Failure α
  /-- The fields of an object; which they are may depend on its members. -/
  IsField : List (Doc × Doc) → String → Prop
  /-- The fields that hold a target. -/
  targets : List String := []

end Wire

namespace Target

open Wire

def IsField (name : String) : Prop := name ∈ ["target_type", "target_id"]

/-- Targets as they are written on their own. -/
def form : Form Target where
  ofDoc := ofDoc (.text keptDepth)
  IsField _ := IsField

end Target

namespace Wire

variable {α : Type}

/-- Members that are the same, or that hold targets of which one is the other
rearranged. -/
inductive Alike (targets : List String) : Doc × Doc → Doc × Doc → Prop
  | same (m : Doc × Doc) : Alike targets m m
  | target {name : String} {inner inner' : List (Doc × Doc)} (hname : name ∈ targets)
    (h : Rearranged Target.IsField Eq inner inner') :
    Alike targets (.ofString name, .object inner true) (.ofString name, .object inner' true)

/-- What is read from a text depends on the fields alone, and every field is read at
most once. -/
structure Form.OpenToOthers (form : Form α) : Prop where
  rearranged : ∀ {s s' : String} {ms ms' : List (Doc × Doc)} {x : α},
    Spells s (.object ms true) → Spells s' (.object ms' true) →
    Rearranged (form.IsField ms) (Alike form.targets) ms ms' → (Doc.object ms' true).nesting ≤ 100 →
    ofText form.ofDoc s = .ok x → ofText form.ofDoc s' = .ok x
  unrepeated : ∀ {s : String} {ms : List (Doc × Doc)} {closed : Bool} {name : String},
    Spells s (.object ms closed) → form.IsField ms name → Twice name ms →
    ∃ e, ofText form.ofDoc s = .error e
  unrepeated_target : ∀ {s : String} {ms inner : List (Doc × Doc)} {closed closed' : Bool}
    {name part : String}, Spells s (.object ms closed) → name ∈ form.targets →
    (.ofString name, .object inner closed') ∈ ms → Target.IsField part →
    Twice part inner → ∃ e, ofText form.ofDoc s = .error e

/-- What is read from a text depends on the fields alone, every field is read at most
once, and there is nothing beside the fields. -/
structure Form.ClosedToOthers (form : Form α) : Prop where
  permuted : ∀ {s s' : String} {ms ms' : List (Doc × Doc)} {x : α},
    Spells s (.object ms true) → Spells s' (.object ms' true) → ms.Perm ms' →
    ofText form.ofDoc s = .ok x → ofText form.ofDoc s' = .ok x
  refused : ∀ {s : String} {ms : List (Doc × Doc)} {closed : Bool} {name : String} {d : Doc},
    Spells s (.object ms closed) → (.ofString name, d) ∈ ms → ¬ form.IsField ms name →
    ∃ e, ofText form.ofDoc s = .error e
  unrepeated : ∀ {s : String} {ms : List (Doc × Doc)} {closed : Bool} {name : String},
    Spells s (.object ms closed) → form.IsField ms name → Twice name ms →
    ∃ e, ofText form.ofDoc s = .error e

end Wire

/-! ### The forms of the records -/

open Wire

/-- Entities as they are written on their own. -/
def entityForm : Form Target where
  ofDoc := entityOfDoc (.text keptDepth)
  IsField _ name := name ∈ ["target"]
  targets := ["target"]

def Session.form : Form Session where
  ofDoc := Session.ofDoc (.text keptDepth)
  IsField _ name := name ∈ ["id", "target", "name", "created_at"]
  targets := ["target"]

def CascadeReport.form : Form CascadeReport where
  ofDoc := CascadeReport.ofDoc (.text keptDepth)
  IsField _ name := name ∈ ["target", "backing_removed", "entity_removed", "sessions_removed"]
  targets := ["target"]

/-- Violations as they are written on their own. Only a violation about a session has
a field for one. -/
def Violation.form : Form Violation where
  ofDoc := Violation.ofDoc (.text keptDepth)
  IsField ms name := name = "kind" ∨ name = "target" ∨
    name = "session" ∧ (.ofString "kind", .ofString Subject.session.tag) ∈ ms
  targets := ["target"]

def StoreConfig.form : Form StoreConfig where
  ofDoc := StoreConfig.ofDoc (.text keptDepth)
  IsField _ name := name ∈ ["path", "busy_timeout_ms", "provision_backing_tables", "journal_wal"]

namespace Wire

variable {σ α : Type} {same : σ → σ → Prop} {shape : Shape σ} {source : Source}
  {ms ms' : List (Doc × Doc)} {s : String} {d : Doc} {start a : σ}

/-! ### Texts -/

/-- The text of a value is read as the value is. -/
theorem ofText_of_spells (h : Spells s d) (read : Doc → Except Failure α) :
    ofText read s = read d := by
  obtain ⟨rest, hread, hrest⟩ := h
  rw [ofText, hread]
  simp only [hrest]
  cases read d <;> rfl

theorem exists_error {x : Except Failure α} (h : ∀ a, x ≠ .ok a) : ∃ e, x = .error e := by
  cases x with
  | error e => exact ⟨e, rfl⟩
  | ok a => exact absurd rfl (h a)

theorem keep_eq_ok {d' : Doc} (h : keep source d = .ok d') : d' = d := by
  unfold keep at h
  split at h
  · split at h <;> cases h
    rfl
  · cases h
    rfl

theorem readString_eq_ok {expected x : String} (h : readString expected d = .ok x) :
    d = .ofString x := by
  unfold readString at h
  split at h
  · cases h
    rfl
  · obtain ⟨f, -, hrefuse⟩ := Except.bind_eq_ok.mp h
    cases hrefuse

/-! ### Rearranged members -/

variable {isField : String → Prop} {alike : Doc × Doc → Doc × Doc → Prop}

theorem Rearranged.mono {isField' : String → Prop} (hre : Rearranged isField alike ms ms')
    (hfields : ∀ name, isField' name → isField name) : Rearranged isField' alike ms ms' := by
  obtain ⟨kept, added, hperm, hkept, hadded⟩ := hre
  refine ⟨kept, added, hperm, hkept, fun m hm => ?_⟩
  obtain ⟨name, hkey, hname, hwell⟩ := hadded m hm
  exact ⟨name, hkey, fun hfield => hname (hfields name hfield), hwell⟩

theorem Rearranged.filter {p : Doc × Doc → Bool} (hre : Rearranged isField alike ms ms')
    (halike : ∀ m m', alike m m' → p m' = p m)
    (hadded : ∀ name d, ¬ isField name → p (.ofString name, d) = true) :
    Rearranged isField alike (ms.filter p) (ms'.filter p) := by
  obtain ⟨kept, added, hperm, hkept, hothers⟩ := hre
  have hall : added.filter p = added := by
    refine List.filter_eq_self.mpr fun m hm => ?_
    obtain ⟨name, hkey, hname, -⟩ := hothers m hm
    have hp := hadded name m.2 hname
    rwa [← hkey] at hp
  refine ⟨kept.filter p, added, ?_, ?_, hothers⟩
  · have hfilter := hperm.filter p
    rwa [List.filter_append, hall] at hfilter
  · exact List.rel_filter (fun m m' h => by simp only [halike m m' h]) hkept

/-- What holds of all members holds of the rearranged ones, if it goes from a member to
one that is alike and holds of what is added. -/
theorem Rearranged.forall_mem {P : Doc × Doc → Prop} (hre : Rearranged isField alike ms ms')
    (halike : ∀ m, ∀ m' ∈ ms', alike m m' → P m → P m')
    (hadded : ∀ name d, (.ofString name, d) ∈ ms' → d.WellFormed → P (.ofString name, d))
    (hms : ∀ m ∈ ms, P m) : ∀ m ∈ ms', P m := by
  obtain ⟨kept, added, hperm, hkept, hothers⟩ := hre
  intro m' hm'
  rcases List.mem_append.mp (hperm.mem_iff.mp hm') with hmem | hmem
  · obtain ⟨i, hi, rfl⟩ := List.mem_iff_getElem.mp hmem
    have hlength := hkept.length_eq
    exact halike ms[i] _ hm' (hkept.get (by omega) hi) (hms _ (List.getElem_mem _))
  · obtain ⟨key, d⟩ := m'
    obtain ⟨name, rfl, -, hwell⟩ := hothers _ hmem
    exact hadded name d hm' hwell

/-- A rearranged object can be kept where the object can, if there is room for it. -/
theorem Rearranged.isKept (hre : Rearranged isField Eq ms ms') {depth : Nat}
    (hkept : (Doc.object ms true).isKept depth = true)
    (hnesting : (Doc.object ms' true).nesting ≤ depth) :
    (Doc.object ms' true).isKept depth = true := by
  obtain ⟨hdepth, -, hms⟩ := Doc.isKept_object.mp hkept
  refine Doc.isKept_object.mpr ⟨hdepth, rfl, hre.forall_mem ?_ ?_ hms⟩
  · rintro m _ - rfl h
    exact h
  · intro name d hmem hwell
    have hlt : d.nesting < (Doc.object ms' true).nesting := Doc.nesting_lt_of_mem hmem
    exact ⟨rfl, rfl, hwell.isKept (by omega)⟩

/-- A rearranged object is read to the same draft. -/
theorem Shape.Orderless.read_rearranged (h : shape.Orderless same)
    (hopen : shape.refusesOthers = false)
    (hnames : ∀ name ∈ shape.slots.map Slot.name, isField name)
    (halike : ∀ m m', alike m m' → ∀ s s', shape.Takes m s s' → shape.Takes m' s s')
    (hre : Rearranged isField alike ms ms')
    (hread : shape.read source start (.object ms true) = .ok a) :
    ∃ b, shape.read source start (.object ms' true) = .ok b ∧ same a b := by
  obtain ⟨kept, added, hperm, hkept, hadded⟩ := hre
  obtain ⟨-, hms⟩ := Shape.read_object_eq_ok.mp hread
  have hfirst : shape.readMembers kept start = .ok a :=
    Shape.readMembers_forall₂ (hkept.imp halike) hms
  have hothers : shape.readMembers added a = .ok a := by
    refine Shape.readMembers_others hopen (fun m hm => ?_) a
    obtain ⟨name, hkey, hname, hwell⟩ := hadded m hm
    exact ⟨name, hkey, fun hmem => hname (hnames name hmem), hwell.isWhole⟩
  obtain ⟨b, hb, hab⟩ := h.readMembers_perm hperm.symm
    (Shape.readMembers_append_eq_ok.mpr ⟨a, hfirst, hothers⟩)
  exact ⟨b, Shape.read_object_eq_ok.mpr ⟨rfl, hb⟩, hab⟩

/-- So it is read to the same record. -/
theorem Shape.Orderless.bind_rearranged (h : shape.Orderless same)
    (hopen : shape.refusesOthers = false)
    (hnames : ∀ name ∈ shape.slots.map Slot.name, isField name)
    (halike : ∀ m m', alike m m' → ∀ s s', shape.Takes m s s' → shape.Takes m' s s')
    {finish : σ → Except Failure α} (hfinish : ∀ s t, same s t → finish s = finish t)
    (hre : Rearranged isField alike ms ms') {x : α}
    (hread : (shape.read source start (.object ms true) >>= finish) = .ok x) :
    (shape.read source start (.object ms' true) >>= finish) = .ok x := by
  obtain ⟨a, ha, hx⟩ := Except.bind_eq_ok.mp hread
  obtain ⟨b, hb, hab⟩ := h.read_rearranged hopen hnames halike hre ha
  exact Except.bind_eq_ok.mpr ⟨b, hb, hfinish a b hab ▸ hx⟩

end Wire

/-! ### Targets -/

namespace Target

/-- Drafts of which one may have kept an identifier that the other never had to keep. -/
structure Draft.Same (s t : Draft) : Prop where
  kind : s.kind = t.kind
  id : s.id = t.id
  told : (s.held.isSome || s.id.isSome) = (t.held.isSome || t.id.isSome)
  held : s.kind = none → s.held = t.held

theorem Draft.same_equivalence : Equivalence Draft.Same where
  refl _ := ⟨rfl, rfl, rfl, fun _ => rfl⟩
  symm := fun ⟨hkind, hid, hset, hheld⟩ =>
    ⟨hkind.symm, hid.symm, hset.symm, fun h => (hheld (hkind.trans h)).symm⟩
  trans := fun ⟨hkind, hid, hset, hheld⟩ ⟨hkind', hid', hset', hheld'⟩ =>
    ⟨hkind.trans hkind', hid.trans hid', hset.trans hset',
      fun h => (hheld h).trans (hheld' (hkind.symm.trans h))⟩

/-- The field of the kind. -/
def kindSlot (source : Source) : Slot Draft where
  name := "target_type"
  isSet s := s.kind.isSome
  set d s := do s.setKind (← Kind.ofDoc source d)
  setItem d s := do s.setKind (← Kind.ofName source d)

/-- The field of the identifier. -/
def idSlot (source : Source) : Slot Draft where
  name := "target_id"
  isSet s := s.held.isSome || s.id.isSome
  set d s := s.setId source.inner d

theorem slots_shape (source : Source) : (shape source).slots = [kindSlot source, idSlot source] :=
  rfl

variable {source : Source} {d e : Doc} {s s' t : Draft} {ms ms' : List (Doc × Doc)} {x : Target}

theorem kindSlot_set_eq_ok :
    (kindSlot source).set d s = .ok s' ↔ ∃ k, Kind.ofDoc source d = .ok k ∧
      (s.held = none ∧ s' = { s with kind := some k } ∨
        ∃ e id, s.held = some e ∧ readId e = .ok id ∧
          s' = { s with kind := some k, id := some id }) := by
  simp only [kindSlot, Except.bind_eq_ok]
  refine exists_congr fun k => and_congr_right fun _ => ?_
  rw [Draft.setKind]
  cases hheld : s.held with
  | none => simp [@eq_comm _ s']
  | some e => simp [Except.map_eq_ok, @eq_comm _ s']

theorem idSlot_set_eq_ok :
    (idSlot source).set d s = .ok s' ↔
      (∃ k id, s.kind = some k ∧ readId d = .ok id ∧ s' = { s with id := some id }) ∨
        s.kind = none ∧ keep source.inner d = .ok d ∧ s' = { s with held := some d } := by
  simp only [idSlot, Draft.setId]
  cases hkind : s.kind with
  | none =>
    simp only [Except.map_eq_ok, reduceCtorEq, false_and, exists_false, false_or, true_and]
    constructor
    · rintro ⟨d', hkeep, rfl⟩
      obtain rfl := keep_eq_ok hkeep
      exact ⟨hkeep, rfl⟩
    · rintro ⟨hkeep, rfl⟩
      exact ⟨d, hkeep, rfl⟩
  | some k => simp [Except.map_eq_ok, @eq_comm _ s']

/-- An identifier that can be read can be kept. -/
theorem keep_of_readId {id : String} (h : readId d = .ok id) (source : Source) :
    keep source d = .ok d := by
  obtain rfl := readString_eq_ok h
  cases source <;> rfl

theorem respects_kindSlot : (kindSlot source).Respects Draft.Same where
  isSet_same h := by simp only [kindSlot, h.kind]
  set_same := by
    rintro d s t s' ⟨hkind, hid, hset, hheld⟩ hunset hread
    obtain ⟨k, hk, hcases⟩ := kindSlot_set_eq_ok.mp hread
    have hnone : s.kind = none := by simpa [kindSlot] using hunset
    have heq := hheld hnone
    rcases hcases with ⟨hheld, rfl⟩ | ⟨e, id, hheld, he, rfl⟩
    · exact ⟨_, kindSlot_set_eq_ok.mpr ⟨k, hk, .inl ⟨heq ▸ hheld, rfl⟩⟩,
        rfl, hid, hset, nofun⟩
    · exact ⟨_, kindSlot_set_eq_ok.mpr ⟨k, hk, .inr ⟨e, id, heq ▸ hheld, he, rfl⟩⟩,
        rfl, rfl, by simp, nofun⟩
  isSet_set := by
    intro d s s' _ hread
    obtain ⟨k, -, ⟨-, rfl⟩ | ⟨e, id, -, -, rfl⟩⟩ := kindSlot_set_eq_ok.mp hread <;> rfl

theorem respects_idSlot : (idSlot source).Respects Draft.Same where
  isSet_same h := h.told.symm
  set_same := by
    rintro d s t s' ⟨hkind, hid, hset, hheld⟩ hunset hread
    rcases idSlot_set_eq_ok.mp hread with ⟨k, id, hk, hd, rfl⟩ | ⟨hnone, hd, rfl⟩
    · refine ⟨_, idSlot_set_eq_ok.mpr (.inl ⟨k, id, hkind ▸ hk, hd, rfl⟩), hkind, rfl, by simp, ?_⟩
      intro hnone
      rw [hk] at hnone
      cases hnone
    · exact ⟨_, idSlot_set_eq_ok.mpr (.inr ⟨hkind ▸ hnone, hd, rfl⟩), hkind, hid, by simp,
        fun _ => rfl⟩
  isSet_set := by
    intro d s s' _ hread
    rcases idSlot_set_eq_ok.mp hread with ⟨k, id, -, -, rfl⟩ | ⟨-, -, rfl⟩ <;> simp [idSlot]

/-- The identifier is read where the kind is known, and kept where it is not. -/
theorem apart_kindSlot_idSlot : (kindSlot source).Apart Draft.Same (idSlot source) where
  isSet_set := by
    intro d s s' hread
    obtain ⟨k, -, ⟨hheld, rfl⟩ | ⟨e, id, hheld, -, rfl⟩⟩ := kindSlot_set_eq_ok.mp hread <;>
      simp [idSlot, hheld]
  set_comm := by
    intro d e s s₁ s₂ hunset hunset' hread hread'
    have hnone : s.kind = none := by simpa [kindSlot] using hunset
    obtain ⟨hheld, -⟩ : s.held = none ∧ s.id = none := by simpa [idSlot] using hunset'
    obtain ⟨k, hk, ⟨-, rfl⟩ | ⟨e', id, hsome, -⟩⟩ := kindSlot_set_eq_ok.mp hread
    · rcases idSlot_set_eq_ok.mp hread' with ⟨k', id, -, he, rfl⟩ | ⟨hkind, -⟩
      · exact ⟨{ s with held := some e }, _,
          idSlot_set_eq_ok.mpr (.inr ⟨hnone, keep_of_readId he _, rfl⟩),
          kindSlot_set_eq_ok.mpr ⟨k, hk, .inr ⟨e, id, rfl, he, rfl⟩⟩, rfl, rfl, by simp, nofun⟩
      · cases hkind
    · rw [hheld] at hsome
      cases hsome

theorem apart_idSlot_kindSlot : (idSlot source).Apart Draft.Same (kindSlot source) where
  isSet_set := by
    intro d s s' hread
    rcases idSlot_set_eq_ok.mp hread with ⟨k, id, -, -, rfl⟩ | ⟨-, -, rfl⟩ <;> rfl
  set_comm := by
    intro d e s s₁ s₂ hunset hunset' hread hread'
    have hnone : s.kind = none := by simpa [kindSlot] using hunset'
    obtain ⟨hheld, -⟩ : s.held = none ∧ s.id = none := by simpa [idSlot] using hunset
    rcases idSlot_set_eq_ok.mp hread with ⟨k, id, hk, -⟩ | ⟨-, hd, rfl⟩
    · rw [hnone] at hk
      cases hk
    · obtain ⟨k, hk, ⟨hempty, -⟩ | ⟨d', id, hd', hid, rfl⟩⟩ := kindSlot_set_eq_ok.mp hread'
      · cases hempty
      · cases hd'
        exact ⟨{ s with kind := some k }, _, kindSlot_set_eq_ok.mpr ⟨k, hk, .inl ⟨hheld, rfl⟩⟩,
          idSlot_set_eq_ok.mpr (.inl ⟨k, id, rfl, hid, rfl⟩), rfl, rfl, by simp, nofun⟩

theorem orderless_shape (source : Source) : (shape source).Orderless Draft.Same where
  equiv := Draft.same_equivalence
  named := by
    simp only [slots_shape, List.forall_mem_cons]
    exact ⟨rfl, rfl, nofun⟩
  respects := by
    simp only [slots_shape, List.forall_mem_cons]
    exact ⟨respects_kindSlot, respects_idSlot, nofun⟩
  apart := by
    simp only [slots_shape, List.forall_mem_cons]
    exact ⟨⟨(absurd rfl ·), fun _ => apart_kindSlot_idSlot, nofun⟩,
      ⟨fun _ => apart_idSlot_kindSlot, (absurd rfl ·), nofun⟩, nofun⟩

/-- The target of a draft. -/
def Draft.finish (s : Draft) : Except Failure Target := do
  return ⟨← required "target_type" s.kind, ← required "target_id" s.id⟩

theorem Draft.Same.finish_eq {s t : Draft} (h : s.Same t) : s.finish = t.finish := by
  rw [finish, finish, h.kind, h.id]

theorem ofDoc_eq_bind (source : Source) (d : Doc) :
    ofDoc source d = (shape source).read source {} d >>= Draft.finish := rfl

/-- A target is read from a rearranged object as from the object. -/
theorem ofDoc_rearranged (hre : Rearranged IsField Eq ms ms')
    (hread : ofDoc source (.object ms true) = .ok x) :
    ofDoc source (.object ms' true) = .ok x :=
  (orderless_shape source).bind_rearranged rfl (fun _ hname => hname)
    (by rintro m _ rfl s s' htakes; exact htakes) (fun _ _ => Draft.Same.finish_eq) hre hread

theorem not_twice_of_ofDoc {closed : Bool} {name : String} (hname : IsField name)
    (hread : ofDoc source (.object ms closed) = .ok x) : ¬ Twice name ms := by
  obtain ⟨s, hs, -⟩ := Except.bind_eq_ok.mp hread
  exact (orderless_shape source).not_twice hname (Shape.read_object_eq_ok.mp hs).2

end Target

/-! ### Records read by a shape -/

namespace Wire

variable {α σ : Type} {form : Form α} {shape : Shape σ} {same : σ → σ → Prop}
  {ms ms' inner : List (Doc × Doc)} {closed closed' : Bool} {name part : String} {x : α}

/-- Records that are read by a shape in which other members pass. -/
structure Form.ReadBy (form : Form α) (shape : Shape σ) (same : σ → σ → Prop) : Prop where
  orderless : shape.Orderless same
  others_pass : shape.refusesOthers = false
  fields : ∀ ms name, form.IsField ms name ↔ name ∈ shape.slots.map Slot.name
  targets : ∀ name ∈ form.targets, ∃ source get put,
    shape.slots.find? (·.name == name) = some (slot name get put (Target.ofDoc source))
  reads : ∃ source start, ∃ finish : σ → Except Failure α,
    (∀ d, form.ofDoc d = shape.read source start d >>= finish) ∧
      ∀ s t, same s t → finish s = finish t

namespace Form.ReadBy

variable (h : form.ReadBy shape same)

include h

theorem takes_alike {m m' : Doc × Doc} (halike : Alike form.targets m m') {s s' : σ}
    (htakes : shape.Takes m s s') : shape.Takes m' s s' := by
  cases halike with
  | same => exact htakes
  | target hname hre =>
    obtain ⟨source, get, put, htarget⟩ := h.targets _ hname
    cases htakes with
    | other hother =>
      rw [htarget] at hother
      cases hother
    | field hfield hset hread =>
      obtain rfl := Option.some.inj (htarget.symm.trans hfield)
      obtain ⟨t, ht, rfl⟩ := slot_set_eq_ok.mp hread
      exact .field hfield hset (slot_set_eq_ok.mpr ⟨t, Target.ofDoc_rearranged hre ht, rfl⟩)

theorem ofDoc_rearranged (hre : Rearranged (form.IsField ms) (Alike form.targets) ms ms')
    (hread : form.ofDoc (.object ms true) = .ok x) : form.ofDoc (.object ms' true) = .ok x := by
  obtain ⟨source, start, finish, hofDoc, hfinish⟩ := h.reads
  rw [hofDoc] at hread ⊢
  exact h.orderless.bind_rearranged h.others_pass (fun name => (h.fields ms name).mpr)
    (fun _ _ halike _ _ => h.takes_alike halike) hfinish hre hread

theorem exists_readMembers (hread : form.ofDoc (.object ms closed) = .ok x) :
    ∃ s a, shape.readMembers ms s = .ok a := by
  obtain ⟨source, start, finish, hofDoc, -⟩ := h.reads
  rw [hofDoc] at hread
  obtain ⟨a, ha, -⟩ := Except.bind_eq_ok.mp hread
  exact ⟨start, a, (Shape.read_object_eq_ok.mp ha).2⟩

theorem not_twice (hread : form.ofDoc (.object ms closed) = .ok x)
    (hname : form.IsField ms name) : ¬ Twice name ms := by
  obtain ⟨s, a, hmembers⟩ := h.exists_readMembers hread
  exact h.orderless.not_twice ((h.fields ms name).mp hname) hmembers

theorem not_twice_target (hread : form.ofDoc (.object ms closed) = .ok x)
    (hname : name ∈ form.targets) (hmem : (.ofString name, .object inner closed') ∈ ms)
    (hpart : Target.IsField part) : ¬ Twice part inner := by
  obtain ⟨s, a, hmembers⟩ := h.exists_readMembers hread
  obtain ⟨source, get, put, htarget⟩ := h.targets _ hname
  obtain ⟨s₁, s₂, htakes⟩ := Shape.exists_takes hmembers hmem
  cases htakes with
  | other hother =>
    rw [htarget] at hother
    cases hother
  | field hfield hset hread =>
    obtain rfl := Option.some.inj (htarget.symm.trans hfield)
    obtain ⟨t, ht, -⟩ := slot_set_eq_ok.mp hread
    exact Target.not_twice_of_ofDoc hpart ht

end Form.ReadBy

/-- A form is open to others if values say so. -/
theorem Form.openToOthers
    (hrearranged : ∀ {ms ms' : List (Doc × Doc)} {x : α},
      Rearranged (form.IsField ms) (Alike form.targets) ms ms' →
      (Doc.object ms' true).nesting ≤ 100 → form.ofDoc (.object ms true) = .ok x →
      form.ofDoc (.object ms' true) = .ok x)
    (hunrepeated : ∀ {ms : List (Doc × Doc)} {closed : Bool} {name : String} {x : α},
      form.ofDoc (.object ms closed) = .ok x → form.IsField ms name → ¬ Twice name ms)
    (htarget : ∀ {ms inner : List (Doc × Doc)} {closed closed' : Bool} {name part : String}
      {x : α}, form.ofDoc (.object ms closed) = .ok x → name ∈ form.targets →
      (.ofString name, .object inner closed') ∈ ms → Target.IsField part → ¬ Twice part inner) :
    form.OpenToOthers where
  rearranged hs hs' hre hnesting hread := by
    rw [ofText_of_spells hs] at hread
    rw [ofText_of_spells hs']
    exact hrearranged hre hnesting hread
  unrepeated hs hname htwice := by
    rw [ofText_of_spells hs]
    exact exists_error fun x hread => hunrepeated hread hname htwice
  unrepeated_target hs hname hmem hpart htwice := by
    rw [ofText_of_spells hs]
    exact exists_error fun x hread => htarget hread hname hmem hpart htwice

theorem Form.ReadBy.openToOthers (h : form.ReadBy shape same) : form.OpenToOthers :=
  Form.openToOthers (fun hre _ => h.ofDoc_rearranged hre) h.not_twice h.not_twice_target

end Wire

/-! ### Entities, sessions and reports -/

theorem orderless_entityShape (source : Source) : (entityShape source).Orderless Eq := by
  refine Shape.orderless_of_slots ?named ?respects (List.pairwise_singleton _ _) <;>
    simp only [entityShape, List.forall_mem_cons]
  case named => exact ⟨rfl, nofun⟩
  case respects => exact ⟨respects_slot fun _ _ => rfl, nofun⟩

theorem readBy_entityForm : entityForm.ReadBy (entityShape (.text keptDepth)) Eq where
  orderless := orderless_entityShape _
  others_pass := rfl
  fields _ _ := .rfl
  targets := by
    simp only [entityForm, List.forall_mem_cons]
    exact ⟨⟨_, _, _, rfl⟩, nofun⟩
  reads := ⟨_, _, _, fun _ => rfl, fun _ _ => congrArg _⟩

theorem Session.orderless_shape (source : Source) : (shape source).Orderless Eq := by
  refine Shape.orderless_of_slots ?named ?respects ?apart <;>
    simp only [shape, List.forall_mem_cons, List.pairwise_cons]
  case named => exact ⟨rfl, rfl, rfl, rfl, nofun⟩
  case respects =>
    refine ⟨?_, ?_, ?_, ?_, nofun⟩ <;> exact respects_slot fun _ _ => rfl
  case apart =>
    refine ⟨⟨?_, ?_, ?_, nofun⟩, ⟨?_, ?_, nofun⟩, ⟨?_, nofun⟩, nofun, .nil⟩ <;>
      exact apart_slots (fun _ _ => rfl) (fun _ _ => rfl) fun _ _ _ => rfl

theorem Session.readBy_form : form.ReadBy (shape (.text keptDepth)) Eq where
  orderless := orderless_shape _
  others_pass := rfl
  fields _ _ := .rfl
  targets := by
    simp only [form, List.forall_mem_cons]
    exact ⟨⟨_, _, _, rfl⟩, nofun⟩
  reads := ⟨_, _, _, fun _ => rfl, fun _ _ h => h ▸ rfl⟩

theorem CascadeReport.orderless_shape (source : Source) : (shape source).Orderless Eq := by
  refine Shape.orderless_of_slots ?named ?respects ?apart <;>
    simp only [shape, List.forall_mem_cons, List.pairwise_cons]
  case named => exact ⟨rfl, rfl, rfl, rfl, nofun⟩
  case respects =>
    refine ⟨?_, ?_, ?_, ?_, nofun⟩ <;> exact respects_slot fun _ _ => rfl
  case apart =>
    refine ⟨⟨?_, ?_, ?_, nofun⟩, ⟨?_, ?_, nofun⟩, ⟨?_, nofun⟩, nofun, .nil⟩ <;>
      exact apart_slots (fun _ _ => rfl) (fun _ _ => rfl) fun _ _ _ => rfl

theorem CascadeReport.readBy_form : form.ReadBy (shape (.text keptDepth)) Eq where
  orderless := orderless_shape _
  others_pass := rfl
  fields _ _ := .rfl
  targets := by
    simp only [form, List.forall_mem_cons]
    exact ⟨⟨_, _, _, rfl⟩, nofun⟩
  reads := ⟨_, _, _, fun _ => rfl, fun _ _ h => h ▸ rfl⟩

theorem Target.readBy_form : form.ReadBy (shape (.text keptDepth)) Draft.Same where
  orderless := orderless_shape _
  others_pass := rfl
  fields _ _ := .rfl
  targets := nofun
  reads := ⟨_, _, _, ofDoc_eq_bind _, fun _ _ => Draft.Same.finish_eq⟩

end OwnershipRegistry
