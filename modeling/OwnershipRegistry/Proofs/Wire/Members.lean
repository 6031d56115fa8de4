import Mathlib.Data.List.Forall2
import Mathlib.Data.List.Pairwise
import OwnershipRegistry.Proofs.Outcome
import OwnershipRegistry.Wire.Shape

/-!
Members of an object, in any order. Reading a record goes through the members one
after the other and keeps a draft. Two fields that stand apart may be read in either
order, to drafts that are the same for all that is asked of them later; from this the
members may be permuted as a whole. What no field is named by passes without a trace,
and a name that comes a second time is met by a draft that has its field already.
-/

namespace OwnershipRegistry.Wire

open Json (Doc)

/-- Members among which a name is the key of two. -/
def Twice (name : String) (ms : List (Doc × Doc)) : Prop :=
  ∃ before d between e after,
    ms = before ++ (.ofString name, d) :: (between ++ (.ofString name, e) :: after)

theorem Twice.filter {name : String} {ms : List (Doc × Doc)} (h : Twice name ms)
    {p : Doc × Doc → Bool} (hp : ∀ d, p (.ofString name, d) = true) : Twice name (ms.filter p) := by
  obtain ⟨before, d, between, e, after, rfl⟩ := h
  refine ⟨before.filter p, d, between.filter p, e, after.filter p, ?_⟩
  simp only [List.filter_append, List.filter_cons, hp, if_true]

theorem not_twice_singleton {name : String} {m : Doc × Doc} : ¬ Twice name [m] := by
  rintro ⟨before, d, between, e, after, heq⟩
  have hlength := congrArg List.length heq
  simp only [List.length_append, List.length_cons, List.length_nil] at hlength
  omega

variable {σ α : Type} {same : σ → σ → Prop}

/-! ### Fields -/

/-- A field that does not tell drafts apart which are the same. -/
structure Slot.Respects (same : σ → σ → Prop) (f : Slot σ) : Prop where
  isSet_same : ∀ {s t}, same s t → f.isSet t = f.isSet s
  set_same : ∀ {d s t s'}, same s t → f.isSet s = false → f.set d s = .ok s' →
    ∃ t', f.set d t = .ok t' ∧ same s' t'
  isSet_set : ∀ {d s s'}, f.isSet s = false → f.set d s = .ok s' → f.isSet s' = true

/-- Two fields that may be read in this order or in the other. -/
structure Slot.Apart (same : σ → σ → Prop) (f g : Slot σ) : Prop where
  isSet_set : ∀ {d s s'}, f.set d s = .ok s' → g.isSet s' = g.isSet s
  set_comm : ∀ {d e s s₁ s₂}, f.isSet s = false → g.isSet s = false →
    f.set d s = .ok s₁ → g.set e s₁ = .ok s₂ →
    ∃ t₁ t₂, g.set e s = .ok t₁ ∧ f.set d t₁ = .ok t₂ ∧ same s₂ t₂

/-- A shape whose fields may stand in any order. -/
structure Shape.Orderless (shape : Shape σ) (same : σ → σ → Prop) : Prop where
  equiv : Equivalence same
  /-- No two fields have one name. -/
  named : ∀ f ∈ shape.slots, shape.slots.find? (·.name == f.name) = some f
  respects : ∀ f ∈ shape.slots, f.Respects same
  apart : ∀ f ∈ shape.slots, ∀ g ∈ shape.slots, f.name ≠ g.name → f.Apart same g

section Slots

variable {β : Type} {name name' : String} {get : σ → Option α} {put : α → σ → σ}
  {read : Doc → Except Failure α} {get' : σ → Option β} {put' : β → σ → σ}
  {read' : Doc → Except Failure β}

theorem slot_set_eq_ok {d : Doc} {s s' : σ} :
    (slot name get put read).set d s = .ok s' ↔ ∃ x, read d = .ok x ∧ s' = put x s := by
  simp only [slot, Except.map_eq_ok, @eq_comm _ s']

theorem respects_slot (hput : ∀ x s, (get (put x s)).isSome = true) :
    (slot name get put read).Respects Eq where
  isSet_same h := by rw [h]
  set_same h _ hset := ⟨_, h ▸ hset, rfl⟩
  isSet_set _ hset := by
    obtain ⟨x, -, rfl⟩ := slot_set_eq_ok.mp hset
    exact hput x _

theorem apart_slot (hget : ∀ x s, get' (put x s) = get' s)
    (hput : ∀ x y s, put' y (put x s) = put x (put' y s)) :
    (slot name get put read).Apart Eq (slot name' get' put' read') where
  isSet_set hset := by
    obtain ⟨x, -, rfl⟩ := slot_set_eq_ok.mp hset
    simp only [slot, hget]
  set_comm _ _ hf hg := by
    obtain ⟨x, hx, rfl⟩ := slot_set_eq_ok.mp hf
    obtain ⟨y, hy, rfl⟩ := slot_set_eq_ok.mp hg
    exact ⟨_, _, slot_set_eq_ok.mpr ⟨y, hy, rfl⟩, slot_set_eq_ok.mpr ⟨x, hx, rfl⟩, hput x y _⟩

/-- Fields are apart if neither shows in the other. -/
theorem apart_slots (hget : ∀ x s, get' (put x s) = get' s)
    (hget' : ∀ y s, get (put' y s) = get s)
    (hput : ∀ x y s, put' y (put x s) = put x (put' y s)) :
    (slot name get put read).Apart Eq (slot name' get' put' read') ∧
      (slot name' get' put' read').Apart Eq (slot name get put read) :=
  ⟨apart_slot hget hput, apart_slot hget' fun y x s => (hput x y s).symm⟩

end Slots

/-- Drafts are told apart by nothing but what is in them. -/
theorem Shape.orderless_of_slots {shape : Shape σ}
    (named : ∀ f ∈ shape.slots, shape.slots.find? (·.name == f.name) = some f)
    (respects : ∀ f ∈ shape.slots, f.Respects Eq)
    (apart : shape.slots.Pairwise fun f g => f.Apart Eq g ∧ g.Apart Eq f) :
    shape.Orderless Eq where
  equiv := eq_equivalence
  named := named
  respects := respects
  apart f hf g hg hname := by
    have : Std.Symm fun f g : Slot σ => f.Apart Eq g ∧ g.Apart Eq f := ⟨fun _ _ => And.symm⟩
    exact (apart.forall hf hg fun heq => hname (congrArg Slot.name heq)).1

namespace Shape

variable {shape : Shape σ} {m m' : Doc × Doc} {ms ms' : List (Doc × Doc)} {s s' s'' t a : σ}

/-! ### One member -/

/-- What a member makes of a draft where it is read. -/
inductive Takes (shape : Shape σ) : Doc × Doc → σ → σ → Prop
  | field {name : String} {d : Doc} {f : Slot σ} {s s' : σ}
    (hfield : shape.slots.find? (·.name == name) = some f) (hset : f.isSet s = false)
    (hread : f.set d s = .ok s') : Takes shape (.ofString name, d) s s'
  | other {name : String} {d : Doc} {s : σ}
    (hother : shape.slots.find? (·.name == name) = none) (hopen : shape.refusesOthers = false)
    (hwhole : d.isWhole = true) : Takes shape (.ofString name, d) s s

theorem readMembers_cons_eq_ok :
    shape.readMembers (m :: ms) s = .ok a ↔
      ∃ s', shape.Takes m s s' ∧ shape.readMembers ms s' = .ok a := by
  constructor
  · intro h
    obtain ⟨key, d⟩ := m
    match key, h with
    | .string (some name), h =>
      rw [readMembers] at h
      split at h
      · rename_i f hfield
        split at h
        · cases h
        · rename_i hset
          obtain ⟨s', hread, hrest⟩ := Except.bind_eq_ok.mp h
          exact ⟨s', .field hfield (by simpa using hset) hread, hrest⟩
      · rename_i hother
        split at h
        · cases h
        · rename_i hopen
          obtain ⟨_, hignore, hrest⟩ := Except.bind_eq_ok.mp h
          rw [ignore] at hignore
          split at hignore
          · rename_i hwhole
            exact ⟨s, .other hother (by simpa using hopen) hwhole, hrest⟩
          · cases hignore
  · rintro ⟨s', htakes, hrest⟩
    cases htakes with
    | field hfield hset hread =>
      simp only [Doc.ofString, readMembers, hfield, hset, hread]
      exact hrest
    | other hother hopen hwhole =>
      simp only [Doc.ofString, readMembers, hother, hopen, ignore, hwhole]
      exact hrest

theorem readMembers_append_eq_ok :
    shape.readMembers (ms ++ ms') s = .ok a ↔
      ∃ s', shape.readMembers ms s = .ok s' ∧ shape.readMembers ms' s' = .ok a := by
  induction ms generalizing s with
  | nil => simp [readMembers]
  | cons m ms ih =>
    simp only [List.cons_append, readMembers_cons_eq_ok, ih]
    constructor
    · rintro ⟨s₁, htakes, s₂, hread, hrest⟩
      exact ⟨s₂, ⟨s₁, htakes, hread⟩, hrest⟩
    · rintro ⟨s₂, ⟨s₁, htakes, hread⟩, hrest⟩
      exact ⟨s₁, htakes, s₂, hread, hrest⟩

/-- Every member of what was read was read with some draft. -/
theorem exists_takes (hread : shape.readMembers ms s = .ok a) (hmem : m ∈ ms) :
    ∃ s₁ s₂, shape.Takes m s₁ s₂ := by
  obtain ⟨before, after, rfl⟩ := List.append_of_mem hmem
  obtain ⟨s₁, -, htail⟩ := readMembers_append_eq_ok.mp hread
  obtain ⟨s₂, htakes, -⟩ := readMembers_cons_eq_ok.mp htail
  exact ⟨s₁, s₂, htakes⟩

theorem read_object_eq_ok {source : Source} {closed : Bool} :
    shape.read source s (.object ms closed) = .ok a ↔
      closed = true ∧ shape.readMembers ms s = .ok a := by
  simp only [read, Except.bind_eq_ok]
  constructor
  · rintro ⟨s', hread, hclosed⟩
    cases closed with
    | false => cases hclosed
    | true =>
      cases hclosed
      exact ⟨rfl, hread⟩
  · rintro ⟨rfl, hread⟩
    exact ⟨a, hread, rfl⟩

/-! ### The order of members -/

namespace Orderless

variable (h : shape.Orderless same)

include h

theorem takes_same (hst : same s t) (htakes : shape.Takes m s s') :
    ∃ t', shape.Takes m t t' ∧ same s' t' := by
  cases htakes with
  | field hfield hset hread =>
    have hrespects := h.respects _ (List.mem_of_find?_eq_some hfield)
    obtain ⟨t', hread', hsame⟩ := hrespects.set_same hst hset hread
    exact ⟨t', .field hfield ((hrespects.isSet_same hst).trans hset) hread', hsame⟩
  | other hother hopen hwhole => exact ⟨t, .other hother hopen hwhole, hst⟩

theorem readMembers_same (hst : same s t) (hread : shape.readMembers ms s = .ok a) :
    ∃ b, shape.readMembers ms t = .ok b ∧ same a b := by
  induction ms generalizing s t with
  | nil =>
    cases hread
    exact ⟨t, rfl, hst⟩
  | cons m ms ih =>
    obtain ⟨s', htakes, hrest⟩ := readMembers_cons_eq_ok.mp hread
    obtain ⟨t', htakes', hsame⟩ := h.takes_same hst htakes
    obtain ⟨b, hrest', hab⟩ := ih hsame hrest
    exact ⟨b, readMembers_cons_eq_ok.mpr ⟨t', htakes', hrest'⟩, hab⟩

/-- Two members of one field are not both read, so two that are read are apart. -/
theorem takes_swap (hm : shape.Takes m s s') (hm' : shape.Takes m' s' s'') :
    ∃ t t', shape.Takes m' s t ∧ shape.Takes m t t' ∧ same s'' t' := by
  cases hm with
  | other hother hopen hwhole =>
    exact ⟨s'', s'', hm', .other hother hopen hwhole, h.equiv.refl _⟩
  | @field name d f _ _ hfield hset hread =>
    cases hm' with
    | other hother hopen hwhole =>
      exact ⟨s, s', .other hother hopen hwhole, .field hfield hset hread, h.equiv.refl _⟩
    | @field name' e g _ _ hfield' hset' hread' =>
      have hf := List.mem_of_find?_eq_some hfield
      have hg := List.mem_of_find?_eq_some hfield'
      have hname : f.name = name := by simpa using List.find?_some hfield
      have hname' : g.name = name' := by simpa using List.find?_some hfield'
      by_cases heq : name = name'
      · subst heq
        obtain rfl : f = g := by simpa [hfield] using hfield'
        have htrue := (h.respects f hf).isSet_set hset hread
        rw [hset'] at htrue
        cases htrue
      · have hapart := h.apart f hf g hg (by rwa [hname, hname'])
        have hapart' := h.apart g hg f hf (by rw [hname, hname']; exact Ne.symm heq)
        have hunset : g.isSet s = false := (hapart.isSet_set hread).symm.trans hset'
        obtain ⟨t, t', hreadg, hreadf, hsame⟩ := hapart.set_comm hset hunset hread hread'
        exact ⟨t, t', .field hfield' hunset hreadg,
          .field hfield ((hapart'.isSet_set hreadg).trans hset) hreadf, hsame⟩

/-- The members of an object may be permuted. -/
theorem readMembers_perm (hperm : ms.Perm ms') (hread : shape.readMembers ms s = .ok a) :
    ∃ b, shape.readMembers ms' s = .ok b ∧ same a b := by
  induction hperm generalizing s a with
  | nil => exact ⟨a, hread, h.equiv.refl a⟩
  | cons m _ ih =>
    obtain ⟨s', htakes, hrest⟩ := readMembers_cons_eq_ok.mp hread
    obtain ⟨b, hrest', hab⟩ := ih hrest
    exact ⟨b, readMembers_cons_eq_ok.mpr ⟨s', htakes, hrest'⟩, hab⟩
  | swap m m' ms =>
    obtain ⟨s', hm', htail⟩ := readMembers_cons_eq_ok.mp hread
    obtain ⟨s'', hm, hrest⟩ := readMembers_cons_eq_ok.mp htail
    obtain ⟨t, t', htakes, htakes', hsame⟩ := h.takes_swap hm' hm
    obtain ⟨b, hrest', hab⟩ := h.readMembers_same hsame hrest
    exact ⟨b, readMembers_cons_eq_ok.mpr
      ⟨t, htakes, readMembers_cons_eq_ok.mpr ⟨t', htakes', hrest'⟩⟩, hab⟩
  | trans _ _ ih ih' =>
    obtain ⟨b, hread', hab⟩ := ih hread
    obtain ⟨c, hread'', hbc⟩ := ih' hread'
    exact ⟨c, hread'', h.equiv.trans hab hbc⟩

/-! ### Names that come twice -/

/-- A field that was read stays read. -/
theorem isSet_takes {f : Slot σ} (hf : f ∈ shape.slots) (htakes : shape.Takes m s s')
    (hset : f.isSet s = true) : f.isSet s' = true := by
  cases htakes with
  | other => exact hset
  | @field name d g _ _ hfield hunset hread =>
    have hg := List.mem_of_find?_eq_some hfield
    by_cases hname : g.name = f.name
    · obtain rfl : f = g := by
        have heq := h.named g hg
        rw [hname, h.named f hf] at heq
        exact Option.some.inj heq
      rw [hset] at hunset
      cases hunset
    · exact ((h.apart g hg f hf hname).isSet_set hread).trans hset

theorem isSet_readMembers {f : Slot σ} (hf : f ∈ shape.slots) (hset : f.isSet s = true)
    (hread : shape.readMembers ms s = .ok a) : f.isSet a = true := by
  induction ms generalizing s with
  | nil =>
    cases hread
    exact hset
  | cons m ms ih =>
    obtain ⟨s', htakes, hrest⟩ := readMembers_cons_eq_ok.mp hread
    exact ih (h.isSet_takes hf htakes hset) hrest

/-- The member of a field finds the field unread and leaves it read. -/
theorem isSet_of_takes {f : Slot σ} (hf : f ∈ shape.slots) {d : Doc}
    (htakes : shape.Takes (.ofString f.name, d) s s') :
    f.isSet s = false ∧ f.isSet s' = true := by
  cases htakes with
  | other hother =>
    rw [h.named f hf] at hother
    cases hother
  | field hfield hset hread =>
    obtain rfl : f = _ := Option.some.inj ((h.named f hf).symm.trans hfield)
    exact ⟨hset, (h.respects f hf).isSet_set hset hread⟩

/-- No field is read twice, whatever its values and wherever they stand. -/
theorem not_twice {name : String} (hname : name ∈ shape.slots.map Slot.name)
    (hread : shape.readMembers ms s = .ok a) : ¬ Twice name ms := by
  rintro ⟨before, d, between, e, after, rfl⟩
  obtain ⟨f, hf, rfl⟩ := List.mem_map.mp hname
  obtain ⟨s₁, -, htail⟩ := readMembers_append_eq_ok.mp hread
  obtain ⟨s₂, hfirst, htail⟩ := readMembers_cons_eq_ok.mp htail
  obtain ⟨s₃, hbetween, htail⟩ := readMembers_append_eq_ok.mp htail
  obtain ⟨s₄, hsecond, -⟩ := readMembers_cons_eq_ok.mp htail
  have hset := h.isSet_readMembers hf (h.isSet_of_takes hf hfirst).2 hbetween
  rw [(h.isSet_of_takes hf hsecond).1] at hset
  cases hset

end Orderless

/-! ### Other members -/

theorem find?_eq_none {name : String} (hname : name ∉ shape.slots.map Slot.name) :
    shape.slots.find? (·.name == name) = none := by
  refine List.find?_eq_none.mpr fun f hf heq => hname ?_
  exact List.mem_map.mpr ⟨f, hf, by simpa using heq⟩

/-- Members that no field is named by pass without a trace, if they are let pass. -/
theorem readMembers_others (hopen : shape.refusesOthers = false)
    (hothers : ∀ m ∈ ms, ∃ name, m.1 = .ofString name ∧ name ∉ shape.slots.map Slot.name ∧
      m.2.isWhole = true) (s : σ) :
    shape.readMembers ms s = .ok s := by
  induction ms with
  | nil => rfl
  | cons m ms ih =>
    obtain ⟨hm, hms⟩ := List.forall_mem_cons.mp hothers
    obtain ⟨key, d⟩ := m
    obtain ⟨name, rfl, hname, hwhole⟩ := hm
    exact readMembers_cons_eq_ok.mpr
      ⟨s, .other (find?_eq_none hname) hopen hwhole, ih hms⟩

/-- A shape that refuses other members has none of them. -/
theorem mem_names_of_readMembers (hrefuses : shape.refusesOthers = true)
    (hread : shape.readMembers ms s = .ok a) {name : String} {d : Doc}
    (hmem : (.ofString name, d) ∈ ms) : name ∈ shape.slots.map Slot.name := by
  obtain ⟨s₁, s₂, htakes⟩ := exists_takes hread hmem
  cases htakes with
  | field hfield =>
    exact List.mem_map.mpr ⟨_, List.mem_of_find?_eq_some hfield,
      by simpa using List.find?_some hfield⟩
  | other _ hopen =>
    rw [hrefuses] at hopen
    cases hopen

/-- Members may be put in the place of members that are read as they are. -/
theorem readMembers_forall₂
    (halike : List.Forall₂ (fun m m' => ∀ s s', shape.Takes m s s' → shape.Takes m' s s') ms ms')
    (hread : shape.readMembers ms s = .ok a) : shape.readMembers ms' s = .ok a := by
  induction halike generalizing s with
  | nil => exact hread
  | cons hm _ ih =>
    obtain ⟨s', htakes, hrest⟩ := readMembers_cons_eq_ok.mp hread
    exact readMembers_cons_eq_ok.mpr ⟨s', hm _ _ htakes, ih hrest⟩

end Shape

end OwnershipRegistry.Wire
