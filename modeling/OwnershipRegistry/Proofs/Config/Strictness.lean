import OwnershipRegistry.Proofs.Config.Rendering
import OwnershipRegistry.Proofs.Wire.Fields

/-!
What is read as a configuration, and what is refused. The parsers of both languages
leave a list of keys with what was found for each; from there on it makes no difference
which language it was. Every key must be known and have a value of its type; then the
configuration is the default with what is given, and otherwise the first key that does
not fit is the matter.
-/

namespace OwnershipRegistry

open Json (Doc Spells)
open Wire

namespace StoreConfig

/-! ### Keys and values -/

def keys : List String := fields.map Field.name

/-- What stands against a value for a key. -/
def objection? (key : String) (found : Found) : Option Misfit :=
  match key, found with
  | "path", .string _ | "path", .null => none
  | "path", found => some (.wrongType found "path string")
  | "busy_timeout_ms", .integer n =>
    if 0 ≤ n ∧ n < 2 ^ 64 then none else some (.wrongValue (.integer n) "u64")
  | "busy_timeout_ms", found => some (.wrongType found "u64")
  | "provision_backing_tables", .flag _ | "journal_wal", .flag _ => none
  | "provision_backing_tables", found | "journal_wal", found =>
    some (.wrongType found "a boolean")
  | key, _ => some (.unknownField key keys)

/-- The configuration with what is given for a key. -/
def override (c : StoreConfig) (given : String × Found) : StoreConfig :=
  match given with
  | ("path", .string s) => { c with path := some s }
  | ("path", .null) => { c with path := none }
  | ("busy_timeout_ms", .integer n) => { c with busyTimeoutMs := .ofNat n.toNat }
  | ("provision_backing_tables", .flag b) => { c with provisionBacking := b }
  | ("journal_wal", .flag b) => { c with writeAhead := b }
  | _ => c

/-- The configuration with all that is given, unless something stands against it; then the
first objection is the failure. -/
def overrideAll (c : StoreConfig) (given : List (String × Found)) : Except Failure StoreConfig :=
  match given.findSome? fun g => objection? g.1 g.2 with
  | some m => refuse m
  | none => .ok (given.foldl override c)

variable {given : List (String × Found)} {c : StoreConfig} {s s' : Draft} {key : String}
  {found : Found} {m : Misfit}

theorem overrideAll_cons_of_objection (h : objection? key found = some m) :
    overrideAll c ((key, found) :: given) = refuse m := by
  rw [overrideAll, List.findSome?_cons_of_isSome (by rw [h]; rfl), h]

theorem overrideAll_cons (h : objection? key found = none) :
    overrideAll c ((key, found) :: given) = overrideAll (c.override (key, found)) given := by
  rw [overrideAll, overrideAll, List.findSome?_cons, h, List.foldl_cons]

/-! ### One key -/

/-- A field that takes what nothing stands against, and nothing else. -/
structure Field.Exact (field : Field) : Prop where
  takes : ∀ {found : Found} (s : Draft), objection? field.name found = none →
    ∃ s', field.take found s = .ok s' ∧ s'.toConfig = s.toConfig.override (field.name, found) ∧
      ∀ g ∈ fields, g.isSet s' = (g.name == field.name || g.isSet s)
  refuses : ∀ {found : Found} {m : Misfit} (s : Draft), objection? field.name found = some m →
    field.take found s = refuse m

/-- A field is exact if its value is read exactly and put where it belongs. -/
theorem Field.exact_of_reader {α : Type} {name : String} {isSet : Draft → Bool}
    {read : Found → Except Failure α} {put : α → Draft → Draft}
    (refuses : ∀ {found m}, objection? name found = some m → read found = refuse m)
    (takes : ∀ {found}, objection? name found = none →
      ∃ x, read found = .ok x ∧ ∀ s, (put x s).toConfig = s.toConfig.override (name, found))
    (sets : ∀ x s, ∀ g ∈ fields, g.isSet (put x s) = (g.name == name || g.isSet s)) :
    Field.Exact ⟨name, isSet, fun found s => (read found).map fun x => put x s⟩ where
  takes s h := by
    obtain ⟨x, hread, hput⟩ := takes h
    exact ⟨put x s, Except.map_eq_ok.mpr ⟨x, hread, rfl⟩, hput s, sets x s⟩
  refuses s h := Except.map_eq_error.mpr (refuses h)

theorem exact_of_mem {field : Field} (h : field ∈ fields) : field.Exact := by
  simp only [fields, List.mem_cons, List.not_mem_nil, or_false] at h
  rcases h with rfl | rfl | rfl | rfl
  case inl =>
    refine Field.exact_of_reader (fun {found m} h => ?_) (fun {found} h => ?_)
      fun x s => by simp [fields]
    · cases found <;> cases h <;> rfl
    · cases found <;> cases h <;> exact ⟨_, rfl, fun _ => rfl⟩
  case inr.inl =>
    refine Field.exact_of_reader (fun {found m} h => ?_) (fun {found} h => ?_)
      fun x s => by simp [fields]
    · cases found with
      | integer n =>
        simp only [objection?] at h
        rw [takeCount]
        split_ifs at h ⊢
        cases h
        rfl
      | _ => cases h; rfl
    · cases found with
      | integer n =>
        simp only [objection?] at h
        rw [takeCount]
        split_ifs at h ⊢
        exact ⟨_, rfl, fun _ => rfl⟩
      | _ => cases h
  all_goals
    refine Field.exact_of_reader (fun {found m} h => ?_) (fun {found} h => ?_)
      fun x s => by simp [fields]
    · cases found <;> cases h <;> rfl
    · cases found <;> cases h
      exact ⟨_, rfl, fun _ => rfl⟩

theorem objection_of_unknown (h : fields.find? (·.name == key) = none) :
    objection? key found = some (.unknownField key keys) := by
  simp only [fields, List.find?_eq_none, List.forall_mem_cons, beq_iff_eq] at h
  obtain ⟨hpath, htimeout, hprovision, hjournal, -⟩ := h
  unfold objection?
  split <;> first | contradiction | rfl

theorem mem_of_find? {field : Field} (h : fields.find? (·.name == key) = some field) :
    field ∈ fields ∧ field.name = key := by
  have hname := List.find?_some h
  exact ⟨List.mem_of_find?_eq_some h, by simpa using hname⟩

namespace Draft

/-- Whether something was read for a key. -/
def has (s : Draft) (key : String) : Bool := (fields.find? (·.name == key)).any (·.isSet s)

theorem has_start (key : String) : ({} : Draft).has key = false := by
  rw [has]
  cases h : fields.find? (·.name == key) with
  | none => rfl
  | some field =>
    obtain ⟨hmem, -⟩ := mem_of_find? h
    simp only [fields, List.mem_cons, List.not_mem_nil, or_false] at hmem
    rcases hmem with rfl | rfl | rfl | rfl <;> rfl

/-- A key that was read is not read again. -/
theorem take_of_has (h : s.has key = true) : s.take key found = refuse (.duplicateField key) := by
  rw [has, Option.any_eq_true] at h
  obtain ⟨field, hfind, hset⟩ := h
  simp only [take, hfind, hset, if_true]

theorem take_of_objection (hnew : s.has key = false) (h : objection? key found = some m) :
    s.take key found = refuse m := by
  rw [has] at hnew
  rw [take]
  cases hfind : fields.find? (·.name == key) with
  | none =>
    rw [objection_of_unknown hfind] at h
    cases h
    rfl
  | some field =>
    obtain ⟨hmem, rfl⟩ := mem_of_find? hfind
    have hset : field.isSet s = false := by simpa [hfind] using hnew
    simp only [hset, Bool.false_eq_true, if_false]
    exact (exact_of_mem hmem).refuses s h

theorem exists_take (hnew : s.has key = false) (h : objection? key found = none) :
    ∃ s', s.take key found = .ok s' ∧ s'.toConfig = s.toConfig.override (key, found) ∧
      ∀ k, s'.has k = (k == key || s.has k) := by
  rw [has] at hnew
  rw [take]
  cases hfind : fields.find? (·.name == key) with
  | none =>
    rw [objection_of_unknown hfind] at h
    cases h
  | some field =>
    obtain ⟨hmem, rfl⟩ := mem_of_find? hfind
    have hset : field.isSet s = false := by simpa [hfind] using hnew
    obtain ⟨s', htake, hconfig, hsets⟩ := (exact_of_mem hmem).takes s h
    refine ⟨s', ?_, hconfig, fun k => ?_⟩
    · simp only [hset, Bool.false_eq_true, if_false]
      exact htake
    · rw [has, has]
      cases hk : fields.find? (·.name == k) with
      | none =>
        have hne : k ≠ field.name := by
          rintro rfl
          rw [hfind] at hk
          cases hk
        simp [hne]
      | some g =>
        obtain ⟨hg, rfl⟩ := mem_of_find? hk
        exact hsets g hg

end Draft

/-! ### All keys in order -/

/-- The keys that are given are taken one after the other. -/
def Draft.takeAll (s : Draft) (given : List (String × Found)) : Except Failure Draft :=
  given.foldlM (fun (s : Draft) g => s.take g.1 g.2) s

theorem Draft.takeAll_cons (g : String × Found) :
    s.takeAll (g :: given) = s.take g.1 g.2 >>= fun s => s.takeAll given := rfl

/-- Keys that are all new are taken as far as nothing stands against them. -/
theorem Draft.takeAll_eq (hnew : ∀ g ∈ given, s.has g.1 = false)
    (hdistinct : (given.map Prod.fst).Nodup) :
    (s.takeAll given).map Draft.toConfig = s.toConfig.overrideAll given := by
  induction given generalizing s with
  | nil => rfl
  | cons g given ih =>
    obtain ⟨key, found⟩ := g
    obtain ⟨hkey, hnew⟩ := List.forall_mem_cons.mp hnew
    obtain ⟨hother, hdistinct⟩ := List.nodup_cons.mp hdistinct
    rw [takeAll_cons]
    cases h : objection? key found with
    | some m => rw [overrideAll_cons_of_objection h, take_of_objection hkey h]; rfl
    | none =>
      obtain ⟨s', htake, hconfig, hhas⟩ := exists_take hkey h
      rw [overrideAll_cons h, htake, Except.ok_bind, ← hconfig]
      refine ih (fun g hg => ?_) hdistinct
      have hne : g.1 ≠ key := by
        rintro rfl
        exact hother (List.mem_map.mpr ⟨g, hg, rfl⟩)
      rw [hhas, hnew g hg, Bool.or_false, beq_eq_false_iff_ne]
      exact hne

/-- Of keys that are all taken none is repeated. -/
theorem Draft.distinct_of_takeAll (h : s.takeAll given = .ok s') :
    (∀ g ∈ given, s.has g.1 = false) ∧ (given.map Prod.fst).Nodup := by
  induction given generalizing s with
  | nil => exact ⟨nofun, .nil⟩
  | cons g given ih =>
    rw [takeAll_cons] at h
    obtain ⟨s₁, htake, h⟩ := Except.bind_eq_ok.mp h
    obtain ⟨hnew, hdistinct⟩ := ih h
    have hkey : s.has g.1 = false := by
      by_contra hset
      rw [take_of_has (by simpa using hset)] at htake
      cases htake
    cases hobjection : objection? g.1 g.2 with
    | some m =>
      rw [take_of_objection hkey hobjection] at htake
      cases htake
    | none =>
      obtain ⟨s₂, htake', -, hhas⟩ := exists_take hkey hobjection
      rw [htake] at htake'
      cases htake'
      simp only [hhas, Bool.or_eq_false_iff, beq_eq_false_iff_ne] at hnew
      refine ⟨List.forall_mem_cons.mpr ⟨hkey, fun g' hg' => (hnew g' hg').2⟩, ?_⟩
      refine List.nodup_cons.mpr ⟨fun hmem => ?_, hdistinct⟩
      obtain ⟨g', hg', heq⟩ := List.mem_map.mp hmem
      exact (hnew g' hg').1 heq

/-- Distinct keys are read as the default with what is given. -/
theorem ofFields_eq (hdistinct : (given.map Prod.fst).Nodup) :
    ofFields given = overrideAll inMemory given :=
  Draft.takeAll_eq (s := {}) (fun g _ => Draft.has_start g.1) hdistinct

/-- Only distinct keys are read, against which nothing stands. -/
theorem ofFields_eq_ok :
    ofFields given = .ok c ↔ (given.map Prod.fst).Nodup ∧ overrideAll inMemory given = .ok c := by
  constructor
  · intro h
    obtain ⟨s, htake, -⟩ := Except.map_eq_ok.mp h
    have hdistinct := (Draft.distinct_of_takeAll htake).2
    exact ⟨hdistinct, ofFields_eq hdistinct ▸ h⟩
  · rintro ⟨hdistinct, h⟩
    rw [ofFields_eq hdistinct, h]

/-! ### What the parsers leave -/

/-- A member gives a value for a key. -/
def Gives (g : String × Found) (m : Doc × Doc) : Prop := m.1 = .ofString g.1 ∧ foundIn m.2 = .ok g.2

/-- A TOML text gives values for keys, in order. -/
def GivenInToml (toml : String) (given : List (String × Found)) : Prop :=
  ∃ es, Toml.entries? toml = some es ∧ given = es.map fun e => (e.1, e.2.found)

/-- A JSON text is an object that gives values for keys, in order. -/
def GivenInJson (json : String) (given : List (String × Found)) : Prop :=
  ∃ ms, Spells json (.object ms true) ∧ List.Forall₂ Gives given ms

/-- A JSON text is an array of values for the first keys. -/
def ListedInJson (json : String) (given : List (String × Found)) : Prop :=
  ∃ ds, Spells json (.array ds true) ∧ given.map Prod.fst <+: keys ∧
    List.Forall₂ (fun g d => foundIn d = .ok g.2) given ds

variable {toml json : String} {ms : List (Doc × Doc)} {ds : List Doc}

theorem ofToml_eq (h : GivenInToml toml given) : ofToml toml = ofFields given := by
  obtain ⟨es, hes, rfl⟩ := h
  rw [ofToml, hes]

theorem exists_givenInToml (h : ofToml toml = .ok c) : ∃ given, GivenInToml toml given := by
  rw [ofToml] at h
  cases hes : Toml.entries? toml with
  | none =>
    rw [hes] at h
    cases h
  | some es => exact ⟨_, es, hes, rfl⟩

theorem exists_spells {α : Type} {read : Doc → Except Failure α} {s : String} {x : α}
    (h : ofText read s = .ok x) : ∃ d, Spells s d ∧ read d = .ok x := by
  obtain ⟨y, hread, hend⟩ := Except.bind_eq_ok.mp h
  split_ifs at hend with hblank
  · cases hend
    exact ⟨_, ⟨_, rfl, List.isEmpty_iff.mp hblank⟩, hread⟩

/-- The slot that a field makes in the shape of a configuration. -/
def Field.slot (field : Field) : Slot Draft where
  name := field.name
  isSet := field.isSet
  set d s := do field.take (← foundIn d) s

theorem slots_eq : shape.slots = fields.map Field.slot := rfl

theorem find?_slots (key : String) :
    shape.slots.find? (·.name == key) = (fields.find? (·.name == key)).map Field.slot := by
  rw [slots_eq, List.find?_map]
  rfl

/-- The members of an object are taken like the keys of any language. -/
theorem readMembers_eq (h : List.Forall₂ Gives given ms) (s : Draft) :
    shape.readMembers ms s = s.takeAll given := by
  induction h generalizing s with
  | nil => rfl
  | @cons g m given ms hm hrest ih =>
    obtain ⟨key, found⟩ := g
    obtain ⟨k, d⟩ := m
    obtain ⟨rfl, hfound⟩ := hm
    rw [Draft.takeAll_cons, Draft.take, Doc.ofString, Shape.readMembers, find?_slots]
    cases hfield : fields.find? (·.name == key) with
    | none =>
      have hnames : shape.slots.map Slot.name = fields.map Field.name := rfl
      simp only [Option.map_none, hnames]
      rfl
    | some field =>
      simp only [Option.map_some, Field.slot]
      split
      · rfl
      · rw [hfound, Except.ok_bind]
        exact congrArg _ (funext ih)

theorem ofDoc_object_eq (h : List.Forall₂ Gives given ms) :
    form.ofDoc (.object ms true) = ofFields given := by
  have hread := readMembers_eq h {}
  have hfields : ofFields given = (Draft.takeAll {} given).map Draft.toConfig := rfl
  rw [hfields]
  simp only [form, ofDoc, Shape.read, hread]
  cases Draft.takeAll {} given <;> rfl

/-- Of an object that is read every member gives a value for a key. -/
theorem exists_gives (h : shape.readMembers ms s = .ok s') :
    ∃ given, List.Forall₂ Gives given ms := by
  induction ms generalizing s with
  | nil => exact ⟨[], .nil⟩
  | cons m ms ih =>
    obtain ⟨s₁, htakes, h⟩ := Shape.readMembers_cons_eq_ok.mp h
    obtain ⟨given, hgiven⟩ := ih h
    cases htakes with
    | other hother hopen => cases hopen
    | @field name d f _ _ hfield hset hread =>
      rw [find?_slots] at hfield
      obtain ⟨field, -, rfl⟩ := Option.map_eq_some_iff.mp hfield
      obtain ⟨found, hfound, -⟩ := Except.bind_eq_ok.mp hread
      exact ⟨(name, found) :: given, .cons ⟨rfl, hfound⟩ hgiven⟩

/-- The elements of an array are taken for the first fields, with nothing against them. -/
theorem exists_listed {fs : List Field} (hfs : ∀ field ∈ fs, field ∈ fields) {ended : Bool}
    {position : Nat} (h : shape.readItems ended position (fs.map Field.slot) ds s = .ok (s', [])) :
    ∃ given, given.map Prod.fst <+: fs.map Field.name ∧
      List.Forall₂ (fun g d => foundIn d = .ok g.2) given ds ∧
      s.toConfig.overrideAll given = .ok s'.toConfig := by
  induction fs generalizing position ds s with
  | nil =>
    rw [List.map_nil, Shape.readItems] at h
    cases h
    exact ⟨[], List.nil_prefix, .nil, rfl⟩
  | cons field fs ih =>
    obtain ⟨hfield, hfs⟩ := List.forall_mem_cons.mp hfs
    rw [List.map_cons] at h
    cases ds with
    | nil =>
      rw [Shape.readItems] at h
      split_ifs at h
      · cases h
        exact ⟨[], List.nil_prefix, .nil, rfl⟩
      · cases h
    | cons d ds =>
      rw [Shape.readItems] at h
      obtain ⟨s₁, hset, h⟩ := Except.bind_eq_ok.mp h
      obtain ⟨found, hfound, htake⟩ := Except.bind_eq_ok.mp hset
      obtain ⟨given, hfront, hgiven, hconfig⟩ := ih hfs h
      refine ⟨(field.name, found) :: given, ?_, .cons hfound hgiven, ?_⟩
      · exact List.cons_prefix_cons.mpr ⟨rfl, hfront⟩
      · cases hobjection : objection? field.name found with
        | some m =>
          rw [(exact_of_mem hfield).refuses s hobjection] at htake
          cases htake
        | none =>
          obtain ⟨s₂, htake', hput, -⟩ := (exact_of_mem hfield).takes s hobjection
          rw [htake] at htake'
          cases htake'
          rw [overrideAll_cons hobjection, ← hput, hconfig]

/-- An array is read as all its elements. -/
theorem ofDoc_array_eq_ok {closed : Bool} :
    form.ofDoc (.array ds closed) = .ok c ↔ closed = true ∧
      ∃ s, shape.readItems closed 0 (fields.map Field.slot) ds {} = .ok (s, []) ∧
        c = s.toConfig := by
  simp only [form, ofDoc, Shape.read, slots_eq, Except.bind_eq_ok, Bool.and_eq_true,
    List.isEmpty_iff]
  constructor
  · rintro ⟨s, ⟨⟨s₁, rest⟩, hitems, hended⟩, hs⟩
    split_ifs at hended with hclosed
    cases hended
    cases hs
    obtain ⟨hclosed, rfl⟩ := hclosed
    exact ⟨hclosed, _, hitems, rfl⟩
  · rintro ⟨rfl, s, hitems, rfl⟩
    exact ⟨s, ⟨(s, []), hitems, rfl⟩, rfl⟩

/-- A configuration that is read off a JSON text has all its values from it. -/
theorem exists_givenInJson (h : ofText form.ofDoc json = .ok c) :
    ∃ given, (GivenInJson json given ∨ ListedInJson json given) ∧
      (given.map Prod.fst).Nodup ∧ overrideAll inMemory given = .ok c := by
  obtain ⟨d, hspells, hread⟩ := exists_spells h
  cases d with
  | object ms closed =>
    obtain ⟨rfl, s, hmembers, rfl⟩ := ofDoc_object_eq_ok.mp hread
    obtain ⟨given, hgiven⟩ := exists_gives hmembers
    rw [ofDoc_object_eq hgiven] at hread
    exact ⟨given, .inl ⟨ms, hspells, hgiven⟩, ofFields_eq_ok.mp hread⟩
  | array ds closed =>
    obtain ⟨rfl, s, hitems, rfl⟩ := ofDoc_array_eq_ok.mp hread
    obtain ⟨given, hfront, hgiven, hconfig⟩ := exists_listed (fun _ => id) hitems
    have hdistinct : keys.Nodup := by decide
    exact ⟨given, .inr ⟨ds, hspells, hfront, hgiven⟩, hdistinct.sublist hfront.sublist, hconfig⟩
  | null | bool | number | string | broken =>
    obtain ⟨s, hread, -⟩ := Except.bind_eq_ok.mp hread
    obtain ⟨found, -, hrefused⟩ := Except.bind_eq_ok.mp hread
    cases hrefused

/-- Values that can be written in both languages are given in some text of each. -/
theorem exists_texts (hdistinct : (given.map Prod.fst).Nodup) (h : ∀ g ∈ given, g.2.Common) :
    (∃ toml, GivenInToml toml given) ∧ ∃ json, GivenInJson json given := by
  constructor
  · obtain ⟨es, hes, hread⟩ := Toml.exists_entries hdistinct h
    exact ⟨_, es, hread, hes⟩
  · refine ⟨_, _, Json.Doc.spells_ofSettings h, ?_⟩
    rw [List.map_map, List.forall₂_map_right_iff, List.forall₂_same]
    exact fun g hg => ⟨rfl, Json.Doc.foundIn_ofFound (h g hg)⟩

/-- A configuration is read strictly, and alike in both languages. Distinct keys with
texts, flags, integers of 64 bits, lists or tables are given in some text of each language.
However they are given, they make the default with what is given for them if each is known
and has a value of its type, and otherwise both languages refuse them in the same words,
about the first that does not fit. No text of either language is read whose keys do not all
fit, and what is read of it is the default with what it gives. -/
theorem read_strictly :
    (∀ {given : List (String × Found)}, (given.map Prod.fst).Nodup → (∀ g ∈ given, g.2.Common) →
      (∃ toml, GivenInToml toml given) ∧ ∃ json, GivenInJson json given) ∧
    (∀ {toml json : String} {given : List (String × Found)}, (given.map Prod.fst).Nodup →
      GivenInToml toml given → GivenInJson json given →
        ofToml toml = overrideAll inMemory given ∧
          ofText form.ofDoc json = overrideAll inMemory given) ∧
    (∀ {toml : String} {c : StoreConfig}, ofToml toml = .ok c →
      ∃ given, GivenInToml toml given ∧ (given.map Prod.fst).Nodup ∧
        overrideAll inMemory given = .ok c) ∧
    ∀ {json : String} {c : StoreConfig}, ofText form.ofDoc json = .ok c →
      ∃ given, (GivenInJson json given ∨ ListedInJson json given) ∧
        (given.map Prod.fst).Nodup ∧ overrideAll inMemory given = .ok c := by
  refine ⟨exists_texts, ?_, ?_, exists_givenInJson⟩
  · rintro toml json given hdistinct htoml ⟨ms, hspells, hgiven⟩
    constructor
    · rw [ofToml_eq htoml, ofFields_eq hdistinct]
    · rw [ofText_of_spells hspells, ofDoc_object_eq hgiven, ofFields_eq hdistinct]
  · intro toml c h
    obtain ⟨given, hgiven⟩ := exists_givenInToml h
    rw [ofToml_eq hgiven] at h
    exact ⟨given, hgiven, ofFields_eq_ok.mp h⟩

/-- Two keys that fit are read, with the defaults for the others; of two that do not fit
the first is the matter. -/
theorem read_strictly_twoKeys :
    (∃ json, ofToml "journal_wal = false\nbusy_timeout_ms = 2000" =
        .ok { busyTimeoutMs := 2000, writeAhead := false } ∧
      ofText form.ofDoc json = .ok { busyTimeoutMs := 2000, writeAhead := false }) ∧
    (∃ json, ofToml "path = 'a'\nbusy_timeout_ms = -5\n[retries]" =
        refuse (.wrongValue (.integer (-5)) "u64") ∧
      ofText form.ofDoc json = refuse (.wrongValue (.integer (-5)) "u64")) ∧
    (∃ given, GivenInToml "journal_wal = false" given ∧ (given.map Prod.fst).Nodup ∧
      overrideAll inMemory given = .ok { writeAhead := false }) ∧
    ∃ given, (GivenInJson "[\"a\"]" given ∨ ListedInJson "[\"a\"]" given) ∧
      (given.map Prod.fst).Nodup ∧ overrideAll inMemory given = .ok { path := some "a" } := by
  obtain ⟨hexist, hread, htoml, hjson⟩ := read_strictly
  have hcommon : ∀ n : Int, n = 2000 ∨ n = -5 → (Found.integer n).Common := by
    rintro n (rfl | rfl) <;> exact .integer _ (by decide)
  refine ⟨?_, ?_, htoml (by rfl), hjson (by rfl)⟩
  · let given := [("journal_wal", Found.flag false), ("busy_timeout_ms", .integer 2000)]
    have hdistinct : (given.map Prod.fst).Nodup := by decide
    obtain ⟨-, json, hgiven⟩ := hexist hdistinct <| by
      simp only [given, List.forall_mem_cons]
      exact ⟨.flag _, hcommon _ (.inl rfl), nofun⟩
    exact ⟨json, hread hdistinct ⟨_, by rfl, rfl⟩ hgiven⟩
  · let given := [("path", Found.string "a"), ("busy_timeout_ms", .integer (-5)), ("retries", .map)]
    have hdistinct : (given.map Prod.fst).Nodup := by decide
    obtain ⟨-, json, hgiven⟩ := hexist hdistinct <| by
      simp only [given, List.forall_mem_cons]
      exact ⟨.string _, hcommon _ (.inr rfl), .map, nofun⟩
    exact ⟨json, hread hdistinct ⟨_, by rfl, rfl⟩ hgiven⟩

end StoreConfig

end OwnershipRegistry
