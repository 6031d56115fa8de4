import Mathlib.Tactic.Common
import OwnershipRegistry.Table

/-!
What tables hold. A key names at most one row, so looking a key up, adding a row
and removing rows are all told by which rows are there; and a table is decided
by its rows. A function that keeps the order of keys carries a table to another
one, and every operation on tables goes through it.
-/

namespace OwnershipRegistry.Table

universe u v u' v'

variable {ρ : Type u} {κ : Type v} [Ord κ] {key : ρ → κ}

@[simp] theorem rows_emptyCollection : (∅ : Table ρ key).rows = [] := rfl

@[simp] theorem mem_rows_keep {t : Table ρ key} {p : ρ → Bool} {r : ρ} :
    r ∈ (t.keep p).rows ↔ r ∈ t.rows ∧ p r = true := by
  simp

theorem keep_eq_self {t : Table ρ key} {p : ρ → Bool} (h : ∀ r ∈ t.rows, p r = true) :
    t.keep p = t :=
  ext (List.filter_eq_self.mpr h)

theorem keep_congr {t : Table ρ key} {p q : ρ → Bool} (h : ∀ r ∈ t.rows, p r = q r) :
    t.keep p = t.keep q :=
  ext (List.filter_congr h)

theorem keep_comm (t : Table ρ key) (p q : ρ → Bool) :
    (t.keep p).keep q = (t.keep q).keep p :=
  ext (by simp only [rows_keep, List.filter_filter, Bool.and_comm])

/-- Rows that are kept are left by a removal of none of them. -/
theorem keep_keep_of_imp {t : Table ρ key} {p q : ρ → Bool}
    (h : ∀ r ∈ t.rows, p r = true → q r = true) : (t.keep q).keep p = t.keep p := by
  refine (keep_comm t q p).trans (keep_eq_self fun r hr => ?_)
  obtain ⟨hr, hp⟩ := mem_rows_keep.mp hr
  exact h r hr hp

/-- Rows that pass a test are met among those alone that pass a wider one. -/
theorem any_rows_keep {t : Table ρ key} {p q : ρ → Bool}
    (h : ∀ r ∈ t.rows, q r = true → p r = true) : (t.keep p).rows.any q = t.rows.any q := by
  rw [Bool.eq_iff_iff, List.any_eq_true, List.any_eq_true]
  constructor
  · rintro ⟨r, hr, hq⟩
    exact ⟨r, (mem_rows_keep.mp hr).1, hq⟩
  · rintro ⟨r, hr, hq⟩
    exact ⟨r, mem_rows_keep.mpr ⟨hr, h r hr hq⟩, hq⟩

/-! ### Keys -/

section Lawful

variable [Std.LawfulEqOrd κ]

/-- A key names at most one row. -/
theorem eq_of_key_eq [Std.TransOrd κ] {t : Table ρ key} {a b : ρ} (ha : a ∈ t.rows)
    (hb : b ∈ t.rows) (h : key a = key b) : a = b := by
  have hlt : ∀ x y, compare (key x) (key y) = .lt → key x ≠ key y := by
    intro x y hxy heq
    rw [heq, Std.compare_self] at hxy
    cases hxy
  -- of two rows one stands before the other, and then its key is smaller
  have hinj : t.rows.Pairwise fun x y => key x = key y → x = y :=
    t.ascending.imp fun {x y} hxy heq => absurd heq (hlt x y hxy)
  have hinj' : t.rows.Pairwise (flip fun x y => key x = key y → x = y) :=
    t.ascending.imp fun {x y} hxy heq => absurd heq.symm (hlt x y hxy)
  exact List.Pairwise.forall_of_forall_of_flip (fun _ _ _ => rfl) hinj hinj' ha hb h

theorem contains_eq_false_iff {t : Table ρ key} {k : κ} :
    t.contains k = false ↔ ∀ r ∈ t.rows, key r ≠ k := by
  rw [← Bool.not_eq_true, contains_iff]
  simp

theorem find?_eq_some_iff [Std.TransOrd κ] {t : Table ρ key} {k : κ} {r : ρ} :
    t.find? k = some r ↔ r ∈ t.rows ∧ key r = k := by
  constructor
  · intro h
    have hk := List.find?_some h
    rw [beq_iff_eq, Std.LawfulEqCmp.compare_eq_iff_eq] at hk
    exact ⟨List.mem_of_find?_eq_some h, hk⟩
  · rintro ⟨hr, rfl⟩
    cases hf : t.find? (key r) with
    | none =>
        have hnone := List.find?_eq_none.mp hf r hr
        simp [Std.compare_self] at hnone
    | some x =>
        have hk := List.find?_some hf
        rw [beq_iff_eq, Std.LawfulEqCmp.compare_eq_iff_eq] at hk
        rw [eq_of_key_eq (List.mem_of_find?_eq_some hf) hr hk]

theorem find?_eq_none_iff {t : Table ρ key} {k : κ} :
    t.find? k = none ↔ t.contains k = false := by
  rw [contains_eq_false_iff, find?, List.find?_eq_none]
  simp [Std.LawfulEqCmp.compare_eq_iff_eq]

/-- Rows that are looked up by their own keys are found. -/
theorem filterMap_find? [Std.TransOrd κ] {t : Table ρ key} {xs : List ρ}
    (h : ∀ x ∈ xs, x ∈ t.rows) : (xs.filterMap fun x => t.find? (key x)) = xs := by
  induction xs with
  | nil => rfl
  | cons x xs ih =>
      have hx : t.find? (key x) = some x := find?_eq_some_iff.mpr ⟨h x List.mem_cons_self, rfl⟩
      rw [List.filterMap_cons]
      simp only [hx, ih fun y hy => h y (List.mem_cons_of_mem _ hy)]

/-! ### Removal -/

@[simp] theorem mem_rows_erase {t : Table ρ key} {k : κ} {r : ρ} :
    r ∈ (t.erase k).rows ↔ r ∈ t.rows ∧ key r ≠ k := by
  simp [erase, Std.LawfulEqCmp.compare_eq_iff_eq]

theorem contains_erase {t : Table ρ key} {k k' : κ} :
    (t.erase k).contains k' = true ↔ k' ≠ k ∧ t.contains k' = true := by
  simp only [contains_iff, mem_rows_erase]
  constructor
  · rintro ⟨r, ⟨hr, hk⟩, rfl⟩
    exact ⟨hk, r, hr, rfl⟩
  · rintro ⟨hk, r, hr, rfl⟩
    exact ⟨r, ⟨hr, hk⟩, rfl⟩

theorem erase_of_contains_eq_false {t : Table ρ key} {k : κ} (h : t.contains k = false) :
    t.erase k = t := by
  refine keep_eq_self fun r hr => ?_
  have hne := contains_eq_false_iff.mp h r hr
  simp [Std.LawfulEqCmp.compare_eq_iff_eq, hne]

theorem contains_erase_self {t : Table ρ key} {k : κ} : (t.erase k).contains k = false :=
  Bool.eq_false_iff.mpr fun h => (contains_erase.mp h).1 rfl

/-- What a test leaves out may be removed before it. -/
theorem keep_erase_of_neg {t : Table ρ key} {p : ρ → Bool} {k : κ}
    (h : ∀ r ∈ t.rows, key r = k → p r = false) : (t.erase k).keep p = t.keep p := by
  refine keep_keep_of_imp fun r hr hp => ?_
  have hne : key r ≠ k := by
    intro heq
    rw [h r hr heq] at hp
    cases hp
  simp [Std.LawfulEqCmp.compare_eq_iff_eq, hne]

theorem find?_keep [Std.TransOrd κ] {t : Table ρ key} {p : ρ → Bool} {k : κ} :
    (t.keep p).find? k = (t.find? k).filter p := by
  ext r
  simp only [find?_eq_some_iff, mem_rows_keep, Option.filter_eq_some_iff]
  tauto

/-- A key whose row is kept is looked up as before. -/
theorem find?_keep_of_imp [Std.TransOrd κ] {t : Table ρ key} {p : ρ → Bool} {k : κ}
    (h : ∀ r ∈ t.rows, key r = k → p r = true) : (t.keep p).find? k = t.find? k := by
  rw [find?_keep]
  cases hf : t.find? k with
  | none => rfl
  | some r =>
      obtain ⟨hr, hk⟩ := find?_eq_some_iff.mp hf
      simp [h r hr hk]

theorem contains_keep {t : Table ρ key} {p : ρ → Bool} {k : κ}
    (h : ∀ r ∈ t.rows, key r = k → p r = true) : (t.keep p).contains k = t.contains k :=
  any_rows_keep fun r hr hk => h r hr (Std.LawfulEqCmp.compare_eq_iff_eq.mp (beq_iff_eq.mp hk))

theorem find?_erase [Std.TransOrd κ] [DecidableEq κ] {t : Table ρ key} {k k' : κ} :
    (t.erase k).find? k' = if k' = k then none else t.find? k' := by
  split_ifs with hk
  · rw [find?_eq_none_iff, ← Bool.not_eq_true, contains_erase]
    exact fun h => h.1 hk
  · ext r
    simp only [find?_eq_some_iff, mem_rows_erase]
    constructor
    · rintro ⟨⟨hr, -⟩, hkey⟩
      exact ⟨hr, hkey⟩
    · rintro ⟨hr, rfl⟩
      exact ⟨⟨hr, hk⟩, rfl⟩

/-! ### Addition -/

theorem place_of_mem [Std.TransOrd κ] {r : ρ} {xs : List ρ}
    (hxs : xs.Pairwise fun a b => compare (key a) (key b) = .lt)
    (h : ∃ x ∈ xs, key x = key r) : place key r xs = xs := by
  induction xs with
  | nil => simp at h
  | cons x xs ih =>
      obtain ⟨hx, hxs⟩ := List.pairwise_cons.mp hxs
      obtain ⟨y, hy, hk⟩ := h
      simp only [place]
      rcases List.mem_cons.mp hy with rfl | hy
      · rw [hk, Std.compare_self]
      · have hlt := hx y hy
        rw [hk] at hlt
        rw [Std.OrientedCmp.gt_of_lt hlt]
        simp only [ih hxs ⟨y, hy, hk⟩]

theorem mem_place_iff {r a : ρ} {xs : List ρ} (h : ∀ x ∈ xs, key x ≠ key r) :
    a ∈ place key r xs ↔ a = r ∨ a ∈ xs := by
  induction xs with
  | nil => simp [place]
  | cons x xs ih =>
      have hx : compare (key r) (key x) ≠ .eq := fun heq =>
        h x List.mem_cons_self (Std.LawfulEqCmp.compare_eq_iff_eq.mp heq).symm
      have ih := ih fun y hy => h y (List.mem_cons_of_mem _ hy)
      simp only [place]
      split
      · simp
      · contradiction
      · simp only [List.mem_cons, ih]
        tauto

theorem insert_of_contains [Std.TransOrd κ] {t : Table ρ key} {r : ρ}
    (h : t.contains (key r) = true) : t.insert r = t :=
  ext (place_of_mem t.ascending (contains_iff.mp h))

theorem mem_rows_insert [Std.TransOrd κ] {t : Table ρ key} {r a : ρ}
    (h : t.contains (key r) = false) : a ∈ (t.insert r).rows ↔ a = r ∨ a ∈ t.rows :=
  mem_place_iff (contains_eq_false_iff.mp h)

/-- A row that is there stays as it is. -/
theorem mem_insert_of_mem [Std.TransOrd κ] {t : Table ρ key} {r a : ρ} (h : a ∈ t.rows) :
    a ∈ (t.insert r).rows := by
  cases hfree : t.contains (key r) with
  | true =>
      rw [insert_of_contains hfree]
      exact h
  | false => exact (mem_rows_insert hfree).mpr (.inr h)

theorem contains_insert [Std.TransOrd κ] {t : Table ρ key} {r : ρ} {k : κ} :
    (t.insert r).contains k = true ↔ k = key r ∨ t.contains k = true := by
  cases h : t.contains (key r) with
  | true =>
      rw [insert_of_contains h]
      constructor
      · exact .inr
      · rintro (rfl | hk)
        · exact h
        · exact hk
  | false =>
      simp only [contains_iff, mem_rows_insert h]
      constructor
      · rintro ⟨x, rfl | hx, rfl⟩
        · exact .inl rfl
        · exact .inr ⟨x, hx, rfl⟩
      · rintro (rfl | ⟨x, hx, rfl⟩)
        · exact ⟨r, .inl rfl, rfl⟩
        · exact ⟨x, .inr hx, rfl⟩

theorem find?_insert [Std.TransOrd κ] [DecidableEq κ] {t : Table ρ key} {r : ρ} {k : κ}
    (h : t.contains (key r) = false) :
    (t.insert r).find? k = if k = key r then some r else t.find? k := by
  ext x
  rw [find?_eq_some_iff, mem_rows_insert h]
  split_ifs with hk
  · subst hk
    rw [Option.some.injEq]
    constructor
    · rintro ⟨rfl | hx, hkey⟩
      · rfl
      · exact absurd hkey (contains_eq_false_iff.mp h x hx)
    · rintro rfl
      exact ⟨.inl rfl, rfl⟩
  · rw [find?_eq_some_iff]
    constructor
    · rintro ⟨rfl | hx, hkey⟩
      · exact absurd hkey.symm hk
      · exact ⟨hx, hkey⟩
    · rintro ⟨hx, hkey⟩
      exact ⟨.inr hx, hkey⟩

/-- A table is decided by its rows: they stand in the order of their keys. -/
theorem ext_of_mem [Std.TransOrd κ] {t t' : Table ρ key} (h : ∀ r, r ∈ t.rows ↔ r ∈ t'.rows) :
    t = t' := by
  have hnodup (s : Table ρ key) : s.rows.Nodup := by
    refine s.ascending.imp fun {a b} hab heq => ?_
    rw [heq, Std.compare_self] at hab
    cases hab
  -- both lists are ascending, and a list has one ascending order
  have hperm : t.rows.Perm t'.rows := (List.perm_ext_iff_of_nodup (hnodup t) (hnodup t')).mpr h
  refine ext (hperm.eq_of_pairwise ?_ t.ascending t'.ascending)
  intro a b _ _ hab hba
  rw [Std.OrientedCmp.gt_of_lt hab] at hba
  cases hba

theorem insert_keep [Std.TransOrd κ] {t : Table ρ key} {p : ρ → Bool} {r : ρ}
    (hfree : t.contains (key r) = false) (hr : p r = true) :
    (t.keep p).insert r = (t.insert r).keep p := by
  have hkept : (t.keep p).contains (key r) = false :=
    contains_eq_false_iff.mpr fun x hx => contains_eq_false_iff.mp hfree x (mem_rows_keep.mp hx).1
  refine ext_of_mem fun x => ?_
  rw [mem_rows_insert hkept, mem_rows_keep, mem_rows_keep, mem_rows_insert hfree]
  constructor
  · rintro (rfl | ⟨hx, hp⟩)
    · exact ⟨.inl rfl, hr⟩
    · exact ⟨.inr hx, hp⟩
  · rintro ⟨rfl | hx, hp⟩
    · exact .inl rfl
    · exact .inr ⟨hx, hp⟩

theorem keep_insert_of_neg [Std.TransOrd κ] {t : Table ρ key} {p : ρ → Bool} {r : ρ}
    (hfree : t.contains (key r) = false) (hr : p r = false) : (t.insert r).keep p = t.keep p := by
  refine ext_of_mem fun x => ?_
  rw [mem_rows_keep, mem_rows_keep, mem_rows_insert hfree]
  constructor
  · rintro ⟨rfl | hx, hp⟩
    · rw [hr] at hp
      cases hp
    · exact ⟨hx, hp⟩
  · rintro ⟨hx, hp⟩
    exact ⟨.inr hx, hp⟩

/-- A table is made up of the rows that pass a test and of those that do not. -/
theorem ext_of_keep [Std.TransOrd κ] {t t' : Table ρ key} (p : ρ → Bool)
    (h : t.keep p = t'.keep p) (h' : t.keep (fun r => !p r) = t'.keep fun r => !p r) : t = t' := by
  refine ext_of_mem fun r => ?_
  have hkept : r ∈ (t.keep p).rows ↔ r ∈ (t'.keep p).rows := by rw [h]
  have hleft : r ∈ (t.keep fun r => !p r).rows ↔ r ∈ (t'.keep fun r => !p r).rows := by rw [h']
  cases hp : p r with
  | true => simpa [hp] using hkept
  | false => simpa [hp] using hleft

end Lawful

/-! ### Tables under a function of their rows -/

variable {ρ' : Type u'} {κ' : Type v'} [Ord κ'] {key' : ρ' → κ'}
  {f : ρ → ρ'} {h : ∀ a b, compare (key' (f a)) (key' (f b)) = compare (key a) (key b)}

@[simp] theorem rows_map (t : Table ρ key) : (t.map f h).rows = t.rows.map f := rfl

@[simp] theorem map_empty : (∅ : Table ρ key).map f h = ∅ := rfl

@[simp] theorem size_map (t : Table ρ key) : (t.map f h).size = t.size := by
  simp [size]

theorem place_map (h : ∀ a b, compare (key' (f a)) (key' (f b)) = compare (key a) (key b))
    (r : ρ) (xs : List ρ) : place key' (f r) (xs.map f) = (place key r xs).map f := by
  induction xs with
  | nil => rfl
  | cons x xs ih =>
      simp only [List.map_cons, place, h, ih]
      split <;> rfl

theorem insert_map [Std.TransOrd κ] [Std.TransOrd κ'] (t : Table ρ key) (r : ρ) :
    (t.map f h).insert (f r) = (t.insert r).map f h :=
  ext (place_map h r t.rows)

theorem keep_map (t : Table ρ key) (p : ρ' → Bool) :
    (t.map f h).keep p = (t.keep fun r => p (f r)).map f h :=
  ext (by simp [List.filter_map, Function.comp_def])

section Keys

variable {k : κ} {k' : κ'} (hk : ∀ r, compare (key' (f r)) k' = compare (key r) k)

include hk

theorem contains_map (t : Table ρ key) : (t.map f h).contains k' = t.contains k := by
  simp [contains, List.any_map, Function.comp_def, hk]

theorem find?_map (t : Table ρ key) : (t.map f h).find? k' = (t.find? k).map f := by
  rw [find?, find?, rows_map, List.find?_map]
  simp only [Function.comp_def, hk]

theorem erase_map (t : Table ρ key) : (t.map f h).erase k' = (t.erase k).map f h := by
  simp [erase, keep_map, hk]

end Keys

end OwnershipRegistry.Table
