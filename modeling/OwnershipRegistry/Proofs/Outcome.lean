import Mathlib.Data.List.Forall2
import OwnershipRegistry.Operation

/-!
Outcomes. What is done to the answer and to the events of an outcome leaves its
store as it is, and no judgement makes an answer of an error.
-/

namespace OwnershipRegistry

namespace Outcome

variable {σ α β : Type}

@[simp] theorem store_read (s : σ) (x : Except RegistryError α) : (read s x).store = s := rfl

@[simp] theorem answer_read (s : σ) (x : Except RegistryError α) : (read s x).answer = x := rfl

@[simp] theorem store_map (f : α → β) (o : Outcome σ α) : (o.map f).store = o.store := rfl

@[simp] theorem answer_map (f : α → β) (o : Outcome σ α) :
    (o.map f).answer = o.answer.map f := rfl

@[simp] theorem store_judge (f : α → Except RegistryError β) (o : Outcome σ α) :
    (o.judge f).store = o.store := rfl

@[simp] theorem answer_judge (f : α → Except RegistryError β) (o : Outcome σ α) :
    (o.judge f).answer = o.answer.bind f := rfl

@[simp] theorem store_after (es : List Event) (o : Outcome σ α) :
    (o.after es).store = o.store := rfl

@[simp] theorem answer_after (es : List Event) (o : Outcome σ α) :
    (o.after es).answer = o.answer := rfl

@[simp] theorem events_read (s : σ) (x : Except RegistryError α) : (read s x).events = [] := rfl

@[simp] theorem events_map (f : α → β) (o : Outcome σ α) : (o.map f).events = o.events := rfl

@[simp] theorem events_judge (f : α → Except RegistryError β) (o : Outcome σ α) :
    (o.judge f).events = o.events := rfl

@[simp] theorem events_after (es : List Event) (o : Outcome σ α) :
    (o.after es).events = es ++ o.events := rfl

@[simp] theorem events_ensuring (t : Target) (o : Outcome σ Target) :
    (o.ensuring t).events = o.events := by
  unfold ensuring
  split <;> rfl

@[simp] theorem store_ensuring (t : Target) (o : Outcome σ Target) :
    (o.ensuring t).store = o.store := by
  unfold ensuring
  split <;> rfl

/-- What is answered in the end is told by what was answered at first. -/
theorem answer_ensuring_congr {τ : Type} {t : Target} {o : Outcome σ Target}
    {o' : Outcome τ Target} (h : o.answer = o'.answer) :
    (o.ensuring t).answer = (o'.ensuring t).answer := by
  unfold ensuring
  rw [h]
  split
  · rfl
  · exact h

theorem answer_ensuring_eq_error {t : Target} {o : Outcome σ Target} {e : RegistryError} :
    (o.ensuring t).answer = .error e ↔ o.answer = .error e ∧ ∀ t', e ≠ .duplicateEntity t' := by
  unfold ensuring
  split
  · rename_i t' h
    simp only [reduceCtorEq, false_iff, not_and, h, Except.error.injEq]
    rintro rfl hne
    exact hne t' rfl
  · rename_i h
    constructor
    · intro he
      exact ⟨he, fun t' ht => h t' (by rw [he, ht])⟩
    · exact And.left

end Outcome

/-! ### Answers -/

namespace Except

variable {ε ε' α β : Type}

theorem map_eq_ok {f : α → β} {x : Except ε α} {b : β} :
    x.map f = .ok b ↔ ∃ a, x = .ok a ∧ f a = b := by
  cases x <;> simp [Except.map]

theorem map_eq_error {f : α → β} {x : Except ε α} {e : ε} :
    x.map f = .error e ↔ x = .error e := by
  cases x <;> simp [Except.map]

theorem map_id_eq (x : Except ε α) : x.map id = x := by
  cases x <;> rfl

/-- Two answers that come to the same, each under a function of its own. -/
theorem map_eq_map_iff {γ : Type} {f : α → γ} {g : β → γ} {x : Except ε α} {y : Except ε β} :
    x.map f = y.map g ↔ (∃ e, x = .error e ∧ y = .error e) ∨
      ∃ a b, x = .ok a ∧ y = .ok b ∧ f a = g b := by
  cases x <;> cases y <;> simp [Except.map, eq_comm]

theorem ok_bind (a : α) (f : α → Except ε β) : (.ok a >>= f) = f a := rfl

theorem bind_eq_ok {x : Except ε α} {f : α → Except ε β} {b : β} :
    (x >>= f) = .ok b ↔ ∃ a, x = .ok a ∧ f a = .ok b := by
  cases x <;> simp [bind, Except.bind]

theorem bind_eq_error {x : Except ε α} {f : α → Except ε β} {e : ε} :
    (x >>= f) = .error e ↔ x = .error e ∨ ∃ a, x = .ok a ∧ f a = .error e := by
  cases x <;> simp [bind, Except.bind]

theorem mapError_ok (f : ε → ε') (a : α) : (.ok a : Except ε α).mapError f = .ok a := rfl

theorem mapError_error (f : ε → ε') (e : ε) :
    (.error e : Except ε α).mapError f = .error (f e) := rfl

theorem map_mapError (f : ε → ε') (g : α → β) (x : Except ε α) :
    (x.mapError f).map g = (x.map g).mapError f := by
  cases x <;> rfl

theorem mapError_eq_ok {f : ε → ε'} {x : Except ε α} {a : α} :
    x.mapError f = .ok a ↔ x = .ok a := by
  cases x with
  | error e => simp [mapError_error]
  | ok b => simp [mapError_ok]

/-- A traversal that succeeds everywhere is a map. -/
theorem mapM_eq_ok {f : α → Except ε β} {g : α → β} {as : List α}
    (h : ∀ a ∈ as, f a = .ok (g a)) : as.mapM f = .ok (as.map g) := by
  induction as with
  | nil => rfl
  | cons a as ih =>
      have ha : f a = .ok (g a) := h a List.mem_cons_self
      have has : as.mapM f = .ok (as.map g) := ih fun b hb => h b (List.mem_cons_of_mem a hb)
      rw [List.mapM_cons, ha, ok_bind, has]
      rfl

/-- A traversal that succeeds gives one result for each thing. -/
theorem mapM_eq_ok_iff_forall₂ {f : α → Except ε β} {as : List α} {bs : List β} :
    as.mapM f = .ok bs ↔ List.Forall₂ (fun a b => f a = .ok b) as bs := by
  induction as generalizing bs with
  | nil => simp [pure, Except.pure, eq_comm]
  | cons a as ih =>
      simp only [List.mapM_cons, bind_eq_ok, ih, List.forall₂_cons_left_iff]
      constructor
      · rintro ⟨b, hb, rest, hrest, heq⟩
        exact ⟨b, rest, hb, hrest, (Except.ok.inj heq).symm⟩
      · rintro ⟨b, rest, hb, hrest, rfl⟩
        exact ⟨b, hb, rest, hrest, rfl⟩

/-- A traversal that succeeds gives what its step gives of the things it has met. -/
theorem mem_iff_of_mapM_eq_ok {f : α → Except ε β} {as : List α} {bs : List β}
    (h : as.mapM f = .ok bs) {b : β} : b ∈ bs ↔ ∃ a ∈ as, f a = .ok b := by
  induction mapM_eq_ok_iff_forall₂.mp h with
  | nil => simp
  | cons hstep hrest ih =>
      rw [List.mem_cons, List.exists_mem_cons_iff, ih (mapM_eq_ok_iff_forall₂.mpr hrest), hstep,
        Except.ok.injEq, eq_comm]

/-- Whatever a traversal that succeeds has met is among its results. -/
theorem mem_of_mapM_eq_ok {f : α → Except ε β} {as : List α} {bs : List β}
    (h : as.mapM f = .ok bs) {a : α} (ha : a ∈ as) : ∃ b ∈ bs, f a = .ok b := by
  induction as generalizing bs with
  | nil => cases ha
  | cons a' as ih =>
      rw [List.mapM_cons] at h
      obtain ⟨b, hb, h⟩ := bind_eq_ok.mp h
      obtain ⟨rest, hrest, h⟩ := bind_eq_ok.mp h
      obtain rfl : b :: rest = bs := Except.ok.inj h
      rcases List.mem_cons.mp ha with rfl | ha
      · exact ⟨b, List.mem_cons_self, hb⟩
      · obtain ⟨b', hb', hf⟩ := ih hrest ha
        exact ⟨b', List.mem_cons_of_mem b hb', hf⟩

/-- Where a step succeeds on the images of some things alone, so does a traversal. -/
theorem mapM_eq_ok_iff {γ : Type} {f : α → Except ε β} {g : γ → α} {k : γ → β}
    (h : ∀ a b, f a = .ok b ↔ ∃ c, a = g c ∧ b = k c) (as : List α) (bs : List β) :
    as.mapM f = .ok bs ↔ ∃ cs : List γ, as = cs.map g ∧ bs = cs.map k := by
  constructor
  · intro hall
    induction as generalizing bs with
    | nil =>
        obtain rfl : [] = bs := Except.ok.inj hall
        exact ⟨[], rfl, rfl⟩
    | cons a as ih =>
        rw [List.mapM_cons] at hall
        obtain ⟨b, hb, hall⟩ := bind_eq_ok.mp hall
        obtain ⟨rest, hrest, hall⟩ := bind_eq_ok.mp hall
        obtain rfl : b :: rest = bs := Except.ok.inj hall
        obtain ⟨c, rfl, rfl⟩ := (h a b).mp hb
        obtain ⟨cs, rfl, rfl⟩ := ih rest hrest
        exact ⟨c :: cs, rfl, rfl⟩
  · rintro ⟨cs, rfl, rfl⟩
    rw [List.mapM_map]
    exact mapM_eq_ok fun c _ => (h _ _).mpr ⟨c, rfl, rfl⟩

/-- A traversal ends with the first error that it meets. -/
theorem mapM_append_of_error {f : α → Except ε β} {before after : List α} {a : α} {e : ε}
    (hbefore : ∀ b ∈ before, ∃ y, f b = .ok y) (ha : f a = .error e) :
    (before ++ a :: after).mapM f = .error e := by
  induction before with
  | nil => rw [List.nil_append, List.mapM_cons, ha]; rfl
  | cons b before ih =>
      obtain ⟨y, hy⟩ := hbefore b List.mem_cons_self
      have ih := ih fun x hx => hbefore x (List.mem_cons_of_mem b hx)
      rw [List.cons_append, List.mapM_cons, hy, ok_bind, ih]
      rfl

/-! ### Answers that succeed -/

theorem exists_ok_ite {c : Prop} [Decidable c] {e : ε} {x : Except ε α} :
    (∃ a, (if c then .error e else x) = .ok a) ↔ ¬c ∧ ∃ a, x = .ok a := by
  by_cases hc : c <;> simp [hc]

theorem exists_ok_map {f : α → β} {x : Except ε α} :
    (∃ b, x.map f = .ok b) ↔ ∃ a, x = .ok a := by
  cases x <;> simp [Except.map]

theorem exists_ok_bind {x : Except ε α} {f : α → Except ε β} :
    (∃ b, (x >>= f) = .ok b) ↔ ∃ a, x = .ok a ∧ ∃ b, f a = .ok b := by
  simp only [bind_eq_ok]
  exact ⟨fun ⟨b, a, ha, hb⟩ => ⟨a, ha, b, hb⟩, fun ⟨a, ha, b, hb⟩ => ⟨b, a, ha, hb⟩⟩

theorem exists_mapM_eq_ok {f : α → Except ε β} {as : List α} :
    (∃ bs, as.mapM f = .ok bs) ↔ ∀ a ∈ as, ∃ b, f a = .ok b := by
  induction as with
  | nil => simp [pure, Except.pure]
  | cons a as ih =>
      simp only [List.mapM_cons, exists_ok_bind, List.forall_mem_cons, ← ih]
      simp [pure, Except.pure]

/-! ### Errors -/

/-- Whatever error an answer may be, it has a property. -/
def OnError (P : ε → Prop) (x : Except ε α) : Prop := ∀ e, x = .error e → P e

variable {P : ε → Prop} {x : Except ε α}

/-- The error of an answer that is one. -/
def error? : Except ε α → Option ε
  | .ok _ => none
  | .error e => some e

theorem error?_eq_some {e : ε} : error? x = some e ↔ x = .error e := by
  cases x <;> simp [error?]

theorem error?_eq_none : error? x = none ↔ ∃ a, x = .ok a := by
  cases x <;> simp [error?]

/-- The first error of two steps, the second of which ends alike whatever the first gave. -/
theorem error?_bind {f : α → Except ε β} {o : Option ε} (h : ∀ a, error? (f a) = o) :
    error? (x >>= f) = (error? x).or o := by
  cases x with
  | error e => rfl
  | ok a => exact h a

theorem onError_ok (a : α) : OnError P (.ok a : Except ε α) := by
  intro e he
  cases he

theorem onError_error {e : ε} (h : P e) : OnError P (.error e : Except ε α) := by
  intro e' he
  cases he
  exact h

theorem OnError.bind {f : α → Except ε β} (hx : OnError P x) (hf : ∀ a, OnError P (f a)) :
    OnError P (x >>= f) := by
  cases x with
  | error e => exact onError_error (hx e rfl)
  | ok a => exact hf a

theorem OnError.map (f : α → β) (hx : OnError P x) : OnError P (x.map f) := by
  cases x with
  | error e => exact onError_error (hx e rfl)
  | ok a => exact onError_ok (f a)

theorem OnError.mapError {f : ε → ε'} {Q : ε' → Prop} (hx : OnError P x)
    (hf : ∀ e, P e → Q (f e)) : OnError Q (x.mapError f) := by
  cases x with
  | error e => exact onError_error (hf e (hx e rfl))
  | ok a => exact onError_ok a

theorem OnError.mapM {f : β → Except ε α} (hf : ∀ b, OnError P (f b)) (bs : List β) :
    OnError P (bs.mapM f) := by
  induction bs with
  | nil => exact onError_ok []
  | cons b bs ih =>
      rw [List.mapM_cons]
      exact (hf b).bind fun a => ih.bind fun as => onError_ok (a :: as)

theorem OnError.optionMapM {f : β → Except ε α} (hf : ∀ b, OnError P (f b)) (b : Option β) :
    OnError P (b.mapM f) := by
  cases b with
  | none => exact onError_ok none
  | some b => exact (hf b).bind fun a => onError_ok (some a)

end Except

end OwnershipRegistry
