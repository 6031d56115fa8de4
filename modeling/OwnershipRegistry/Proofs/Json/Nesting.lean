import OwnershipRegistry.Json.Doc

/-!
How deep arrays and objects lie in each other. A well-formed value has nothing in it
that could not be read: its text is whole, and it can be kept for later wherever its
nesting leaves room.
-/

namespace OwnershipRegistry.Json.Doc

/-- Values whose text is whole and of which all can be read: no half of a surrogate
pair stands alone in them, and no numeral is out of range. -/
inductive WellFormed : Doc → Prop
  | null : WellFormed null
  | bool (b : Bool) : WellFormed (bool b)
  | number (n : Numeral) (inRange : n.value?.isSome = true) : WellFormed (number n)
  | string (s : String) : WellFormed (ofString s)
  | array (items : List Doc) (parts : ∀ d ∈ items, WellFormed d) : WellFormed (ofList items)
  | record (members : List (String × Doc)) (parts : ∀ m ∈ members, WellFormed m.2) :
    WellFormed (record members)

mutual

/-- The number of arrays and objects that lie in each other. -/
def nesting : Doc → Nat
  | array items _ => nestingOfItems items + 1
  | object members _ => nestingOfMembers members + 1
  | _ => 0

def nestingOfItems : List Doc → Nat
  | [] => 0
  | d :: ds => max d.nesting (nestingOfItems ds)

def nestingOfMembers : List (Doc × Doc) → Nat
  | [] => 0
  | (k, d) :: ms => max (max k.nesting d.nesting) (nestingOfMembers ms)

end

/-! ### Parts -/

theorem areWhole_eq_true {items : List Doc} :
    areWhole items = true ↔ ∀ d ∈ items, d.isWhole = true := by
  induction items with
  | nil => simp [areWhole]
  | cons d ds ih => simp [areWhole, ih]

theorem membersAreWhole_eq_true {ms : List (Doc × Doc)} :
    membersAreWhole ms = true ↔ ∀ m ∈ ms, m.1.isKey = true ∧ m.2.isWhole = true := by
  induction ms with
  | nil => simp [membersAreWhole]
  | cons m ms ih =>
    rw [List.forall_mem_cons, ← ih]
    simp [membersAreWhole]

theorem areKept_eq_true {depth : Nat} {items : List Doc} :
    areKept depth items = true ↔ ∀ d ∈ items, d.isKept depth = true := by
  induction items with
  | nil => simp [areKept]
  | cons d ds ih => simp [areKept, ih]

theorem membersAreKept_eq_true {depth : Nat} {ms : List (Doc × Doc)} :
    membersAreKept depth ms = true ↔
      ∀ m ∈ ms, m.1.isKey = true ∧ m.1.isKept depth = true ∧ m.2.isKept depth = true := by
  induction ms with
  | nil => simp [membersAreKept]
  | cons m ms ih =>
    rw [List.forall_mem_cons, ← ih]
    simp [membersAreKept, and_assoc]

theorem nesting_le_of_mem_items {d : Doc} {items : List Doc} (h : d ∈ items) :
    d.nesting ≤ nestingOfItems items := by
  induction items with
  | nil => cases h
  | cons e es ih =>
    rw [nestingOfItems]
    rcases List.mem_cons.mp h with rfl | h
    · exact Nat.le_max_left _ _
    · exact Nat.le_trans (ih h) (Nat.le_max_right _ _)

theorem nesting_le_of_mem_members {m : Doc × Doc} {ms : List (Doc × Doc)} (h : m ∈ ms) :
    m.2.nesting ≤ nestingOfMembers ms := by
  induction ms with
  | nil => cases h
  | cons m' ms ih =>
    rw [nestingOfMembers]
    rcases List.mem_cons.mp h with rfl | h
    · exact Nat.le_trans (Nat.le_max_right _ _) (Nat.le_max_left _ _)
    · exact Nat.le_trans (ih h) (Nat.le_max_right _ _)

/-- The value of a member lies one level deeper than its object. -/
theorem nesting_lt_of_mem {m : Doc × Doc} {ms : List (Doc × Doc)} {closed : Bool} (h : m ∈ ms) :
    m.2.nesting < (object ms closed).nesting := by
  rw [nesting]
  exact Nat.lt_succ_of_le (nesting_le_of_mem_members h)

/-! ### Well-formed values -/

theorem isKept_object {depth : Nat} {ms : List (Doc × Doc)} {closed : Bool} :
    (object ms closed).isKept depth = true ↔ 0 < depth ∧ closed = true ∧
      ∀ m ∈ ms, m.1.isKey = true ∧ m.1.isKept (depth - 1) = true ∧
        m.2.isKept (depth - 1) = true := by
  simp [isKept, membersAreKept_eq_true, and_assoc]

theorem WellFormed.isWhole {d : Doc} (h : d.WellFormed) : d.isWhole = true := by
  induction h with
  | null | bool | number | string => rfl
  | array items _ ih => simpa [ofList, Doc.isWhole, areWhole_eq_true] using ih
  | record ms _ ih =>
    simp only [Doc.record, Doc.isWhole, Bool.true_and, membersAreWhole_eq_true]
    intro m hm
    obtain ⟨m, hmem, rfl⟩ := List.mem_map.mp hm
    exact ⟨rfl, ih m hmem⟩

/-- A well-formed value can be kept where its nesting leaves room. -/
theorem WellFormed.isKept {d : Doc} (h : d.WellFormed) {depth : Nat} (hdepth : d.nesting ≤ depth) :
    d.isKept depth = true := by
  induction h generalizing depth with
  | null | bool | string => rfl
  | number n inRange => exact inRange
  | array items _ ih =>
    rw [ofList, nesting] at hdepth
    simp only [ofList, Doc.isKept, Bool.and_true, Bool.and_eq_true, decide_eq_true_eq,
      areKept_eq_true]
    refine ⟨by omega, fun d hd => ih d hd ?_⟩
    have hle := nesting_le_of_mem_items hd
    omega
  | record ms _ ih =>
    rw [Doc.record, nesting] at hdepth
    refine isKept_object.mpr ⟨by omega, rfl, fun m hm => ?_⟩
    have hle := nesting_le_of_mem_members hm
    obtain ⟨m, hmem, rfl⟩ := List.mem_map.mp hm
    exact ⟨rfl, rfl, ih m hmem (Nat.le_trans hle (Nat.le_sub_one_of_lt hdepth))⟩

end OwnershipRegistry.Json.Doc
