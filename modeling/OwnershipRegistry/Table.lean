/-!
Tables. A table keeps its rows in strictly ascending order of a key, so that a
key names at most one row and two tables with the same rows are equal. All
removal is `keep`, all addition is `insert`, and a row that is already there
stays as it is.
-/

namespace OwnershipRegistry

universe u v u' v'

/-- Rows in strictly ascending order of their keys. -/
structure Table (ρ : Type u) {κ : Type v} [Ord κ] (key : ρ → κ) where
  rows : List ρ
  ascending : rows.Pairwise fun a b => compare (key a) (key b) = .lt

namespace Table

variable {ρ : Type u} {κ : Type v} [Ord κ] {key : ρ → κ}

@[ext] theorem ext {t t' : Table ρ key} (h : t.rows = t'.rows) : t = t' := by
  cases t; cases t'; cases h; rfl

instance [DecidableEq ρ] : DecidableEq (Table ρ key) := fun t t' =>
  if h : t.rows = t'.rows then isTrue (ext h) else isFalse fun e => h (e ▸ rfl)

instance [Repr ρ] : Repr (Table ρ key) := ⟨fun t n => reprPrec t.rows n⟩

def empty : Table ρ key := ⟨[], .nil⟩

instance : EmptyCollection (Table ρ key) := ⟨empty⟩

instance : Inhabited (Table ρ key) := ⟨empty⟩

def find? (t : Table ρ key) (k : κ) : Option ρ :=
  t.rows.find? fun r => compare (key r) k == .eq

def contains (t : Table ρ key) (k : κ) : Bool :=
  t.rows.any fun r => compare (key r) k == .eq

def size (t : Table ρ key) : Nat := t.rows.length

def keep (t : Table ρ key) (p : ρ → Bool) : Table ρ key :=
  ⟨t.rows.filter p, t.ascending.filter p⟩

def erase (t : Table ρ key) (k : κ) : Table ρ key :=
  t.keep fun r => compare (key r) k != .eq

/-- Puts a row in front of the first row with a larger key, unless its key is
taken. -/
def place (key : ρ → κ) (r : ρ) : List ρ → List ρ
  | [] => [r]
  | x :: xs =>
    match compare (key r) (key x) with
    | .lt => r :: x :: xs
    | .eq => x :: xs
    | .gt => x :: place key r xs

theorem mem_place {r a : ρ} {xs : List ρ} (h : a ∈ place key r xs) :
    a = r ∨ a ∈ xs := by
  induction xs with
  | nil => simpa [place] using h
  | cons x xs ih =>
    simp only [place] at h
    split at h
    · simpa using h
    · exact .inr h
    · rcases List.mem_cons.1 h with rfl | h
      · exact .inr List.mem_cons_self
      · exact (ih h).imp_right (List.mem_cons_of_mem _)

theorem place_ascending [Std.TransOrd κ] {r : ρ} {xs : List ρ}
    (h : xs.Pairwise fun a b => compare (key a) (key b) = .lt) :
    (place key r xs).Pairwise fun a b => compare (key a) (key b) = .lt := by
  induction xs with
  | nil => simp [place]
  | cons x xs ih =>
    obtain ⟨hx, hxs⟩ := List.pairwise_cons.1 h
    simp only [place]
    split
    · rename_i hr
      refine List.pairwise_cons.2 ⟨fun a ha => ?_, h⟩
      rcases List.mem_cons.1 ha with rfl | ha
      · exact hr
      · exact Std.TransCmp.lt_trans hr (hx a ha)
    · exact h
    · rename_i hr
      refine List.pairwise_cons.2 ⟨fun a ha => ?_, ih hxs⟩
      rcases mem_place ha with rfl | ha
      · exact Std.OrientedCmp.lt_of_gt hr
      · exact hx a ha

/-- The table with a further row, unless its key is taken. -/
def insert [Std.TransOrd κ] (t : Table ρ key) (r : ρ) : Table ρ key :=
  ⟨place key r t.rows, place_ascending t.ascending⟩

/-- The table of the images of the rows, if the images stand in the same
order. -/
def map {ρ' : Type u'} {κ' : Type v'} [Ord κ'] {key' : ρ' → κ'} (t : Table ρ key) (f : ρ → ρ')
    (h : ∀ a b, compare (key' (f a)) (key' (f b)) = compare (key a) (key b)) : Table ρ' key' :=
  ⟨t.rows.map f, List.pairwise_map.mpr (t.ascending.imp fun {a b} hab => (h a b).trans hab)⟩

/-- The table of the given rows; of several with one key the first stays. -/
def ofList [Std.TransOrd κ] (rs : List ρ) : Table ρ key :=
  rs.foldl (fun t r => t.insert r) empty

@[simp] theorem rows_empty : (empty : Table ρ key).rows = [] := rfl

@[simp] theorem rows_keep (t : Table ρ key) (p : ρ → Bool) :
    (t.keep p).rows = t.rows.filter p := rfl

theorem contains_iff [Std.LawfulEqOrd κ] {t : Table ρ key} {k : κ} :
    t.contains k = true ↔ ∃ r ∈ t.rows, key r = k := by
  simp [contains, List.any_eq_true, Std.LawfulEqCmp.compare_eq_iff_eq]

end Table

end OwnershipRegistry
