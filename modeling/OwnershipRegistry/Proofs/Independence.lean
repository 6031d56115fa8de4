import OwnershipRegistry.Proofs.Outcome

/-!
Independent operations. What a store holds falls into parts, one for each owner,
and an operation reads and writes the parts of its footprint alone: the target that
it names and the owner of the session whose identifier it names. Session identifiers
are shared among all owners, so they count as well. Two operations that share none
of this commute.
-/

namespace OwnershipRegistry

namespace Operation

/-- The target that an operation names. -/
def target? : Operation → Option Target
  | insertBacking t | backingExists t | deleteBacking t | backingDeleted t | register t
  | ensureRegistered t | lookup t | listSessions t | deleteAllSessions t => some t
  | createSession new => some new.target
  | _ => none

/-- The session identifier that an operation names. -/
def session? : Operation → Option SessionId
  | createSession new => some new.id
  | getSession id | deleteSession id => some id
  | _ => none

variable {ρ : Type} {part : Target → ρ} {owns : ρ → SessionId → Prop} {op op' : Operation}

/-- The footprint of an operation, as far as it consists of parts: that of its
target and the one that owns the session with its identifier. -/
def Touches (part : Target → ρ) (owns : ρ → SessionId → Prop) (op : Operation) (r : ρ) : Prop :=
  (∃ t, op.target? = some t ∧ part t = r) ∨ ∃ id, op.session? = some id ∧ owns r id

/-- Two operations with disjoint footprints. -/
structure Apart (part : Target → ρ) (owns : ρ → SessionId → Prop) (op op' : Operation) :
    Prop where
  parts : ∀ r, op.Touches part owns r → ¬op'.Touches part owns r
  sessions : ∀ id, op.session? = some id → op'.session? ≠ some id

theorem Apart.symm (h : Apart part owns op op') : Apart part owns op' op where
  parts r hr hr' := h.parts r hr' hr
  sessions id hid hid' := h.sessions id hid' hid

/-- Footprints that are disjoint where the parts are told by other names. -/
theorem Apart.comap {ρ' : Type} {part' : Target → ρ'} {owns' : ρ' → SessionId → Prop}
    (f : ρ' → ρ) (hpart : ∀ t, f (part' t) = part t)
    (howns : ∀ r id, owns' r id → owns (f r) id) (h : Apart part owns op op') :
    Apart part' owns' op op' where
  parts r hr hr' := by
    have htouches {o : Operation} (hr : o.Touches part' owns' r) : o.Touches part owns (f r) := by
      rcases hr with ⟨t, ht, rfl⟩ | ⟨id, hid, hr⟩
      · exact .inl ⟨t, ht, (hpart t).symm⟩
      · exact .inr ⟨id, hid, howns r id hr⟩
    exact h.parts (f r) (htouches hr) (htouches hr')
  sessions := h.sessions

/-- An operation that names no session touches its target alone. -/
theorem Touches.eq_part {t : Target} (ht : op.target? = some t) (hid : op.session? = none) {r : ρ}
    (h : op.Touches part owns r) : r = part t := by
  rcases h with ⟨t', ht', rfl⟩ | ⟨id, hid', -⟩
  · rw [Option.some.inj (ht.symm.trans ht')]
  · cases hid.symm.trans hid'

/-- Operations whose footprints are within different targets are apart, unless they name
one session. -/
theorem apart_of_targets {t t' : Target} (hne : part t ≠ part t')
    (h : ∀ r, op.Touches part owns r → r = part t)
    (h' : ∀ r, op'.Touches part owns r → r = part t')
    (hid : ∀ id, op.session? = some id → op'.session? ≠ some id) : Apart part owns op op' where
  parts r hr hr' := hne ((h r hr).symm.trans (h' r hr'))
  sessions := hid

end Operation

/-- The outcome with its store passed through a function. -/
def Outcome.onStore {σ α : Type} (g : σ → σ) (o : Outcome σ α) : Outcome σ α :=
  ⟨g o.store, o.answer, o.events⟩

theorem Outcome.ensuring_onStore {σ : Type} (g : σ → σ) (t : Target) (o : Outcome σ Target) :
    (o.onStore g).ensuring t = (o.ensuring t).onStore g := by
  obtain ⟨s, answer, es⟩ := o
  cases answer with
  | ok t => rfl
  | error e => cases e <;> rfl

/-- Stores whose contents fall into parts, and what runs on them. Each run is made
under circumstances of its own. -/
structure Parted (σ ρ κ : Type) where
  run : σ → κ → Operation → Outcome σ Answer
  /-- The store with some parts alone. -/
  only : (ρ → Bool) → σ → σ
  part : Target → ρ
  /-- Whether the session with an identifier is in a part. -/
  owns : σ → ρ → SessionId → Prop

namespace Parted

variable {σ ρ κ : Type} {p : Parted σ ρ κ} {s : σ} {op op' : Operation} {c c' : κ} {F : ρ → Bool}

/-- The footprint of an operation in a store. -/
abbrev Touches (p : Parted σ ρ κ) (s : σ) (op : Operation) (r : ρ) : Prop :=
  op.Touches p.part (p.owns s) r

/-- Two operations with disjoint footprints in a store. -/
abbrev Apart (p : Parted σ ρ κ) (s : σ) (op op' : Operation) : Prop :=
  Operation.Apart p.part (p.owns s) op op'

/-- Either order gives each operation the same answer and the same events, and ends
in the same store. -/
structure Commute (p : Parted σ ρ κ) (s : σ) (c c' : κ) (op op' : Operation) : Prop where
  first : (p.run (p.run s c' op').store c op).answer = (p.run s c op).answer
  second : (p.run (p.run s c op).store c' op').answer = (p.run s c' op').answer
  firstEvents : (p.run (p.run s c' op').store c op).events = (p.run s c op).events
  secondEvents : (p.run (p.run s c op).store c' op').events = (p.run s c' op').events
  store : (p.run (p.run s c op).store c' op').store = (p.run (p.run s c' op').store c op).store
  /-- Whether an operation changes the store is told in either order alike. -/
  changes : (p.run (p.run s c' op').store c op).store = (p.run s c' op').store ↔
    (p.run s c op).store = s

/-- The parts make up the store, and an operation on stores that hold something is
confined to its footprint: it runs on those parts as on the whole, and leaves the
others alone. -/
structure Confined (p : Parted σ ρ κ) (mutates : Operation → Prop) (holds : σ → Prop) : Prop where
  ext : ∀ {s s' : σ} (F : ρ → Bool), p.only F s = p.only F s' →
    p.only (fun r => !F r) s = p.only (fun r => !F r) s' → s = s'
  run_only : ∀ {s : σ} {op : Operation} {F : ρ → Bool} (c : κ), holds s → mutates op →
    (∀ r, p.Touches s op r → F r = true) →
    p.run (p.only F s) c op = (p.run s c op).onStore (p.only F)
  /-- Parts that an operation does not touch are as they were. -/
  only_run : ∀ {s : σ} {op : Operation} {F : ρ → Bool} (c : κ), holds s → mutates op →
    (∀ r, p.Touches s op r → F r = false) → p.only F (p.run s c op).store = p.only F s
  /-- An identifier that an operation does not name gets no other owner. -/
  owns : ∀ {s : σ} {op : Operation} {r : ρ} {id : SessionId} (c : κ), mutates op →
    p.owns (p.run s c op).store r id → p.owns s r id ∨ op.session? = some id
  keeps : ∀ {s : σ} (c : κ) (op : Operation), holds s → holds (p.run s c op).store

namespace Confined

variable {mutates : Operation → Prop} {holds : σ → Prop}

/-- An operation that comes after one with another footprint touches no more than it
would have touched before. -/
theorem touches_run (h : p.Confined mutates holds) (hop : mutates op) (hapart : p.Apart s op op')
    {r : ρ} (hr : p.Touches (p.run s c op).store op' r) : p.Touches s op' r := by
  rcases hr with htarget | ⟨id, hid, howns⟩
  · exact .inl htarget
  · rcases h.owns c hop howns with howns | hsame
    · exact .inr ⟨id, hid, howns⟩
    · exact absurd hid (hapart.sessions id hsame)

/-- After an operation with another footprint, an operation does to the parts of its
own footprint what it would have done before. -/
theorem run_after (h : p.Confined mutates holds) (c c' : κ) (hs : holds s) (hop : mutates op)
    (hop' : mutates op') (hapart : p.Apart s op op') (hF : ∀ r, p.Touches s op' r → F r = true)
    (hdisjoint : ∀ r, p.Touches s op r → F r = false) :
    (p.run (p.run s c op).store c' op').onStore (p.only F) =
      (p.run s c' op').onStore (p.only F) := by
  rw [← h.run_only c' (h.keeps c op hs) hop' fun r hr => hF r (h.touches_run hop hapart hr),
    h.only_run c hs hop hdisjoint, h.run_only c' hs hop' hF]

open Classical in
/-- Some parts hold the footprint of the second operation and none of the
first. -/
theorem exists_separating (hapart : p.Apart s op op') :
    ∃ F : ρ → Bool, (∀ r, p.Touches s op' r → F r = true) ∧ ∀ r, p.Touches s op r → F r = false :=
  ⟨fun r => decide (p.Touches s op' r), fun _ => decide_eq_true,
    fun r hr => decide_eq_false (hapart.parts r hr)⟩

theorem answer_after (h : p.Confined mutates holds) (hs : holds s) (hop : mutates op)
    (hop' : mutates op') (hapart : p.Apart s op op') :
    (p.run (p.run s c op).store c' op').answer = (p.run s c' op').answer ∧
      (p.run (p.run s c op).store c' op').events = (p.run s c' op').events := by
  obtain ⟨F, hF, hdisjoint⟩ := exists_separating hapart
  have hafter := h.run_after c c' hs hop hop' hapart hF hdisjoint
  have hanswer := congrArg Outcome.answer hafter
  have hevents := congrArg Outcome.events hafter
  exact ⟨hanswer, hevents⟩

/-- The store after both operations is told by what each makes of its own parts. -/
theorem store_after (h : p.Confined mutates holds) (hs : holds s) (hop : mutates op)
    (hop' : mutates op') (hapart : p.Apart s op op') :
    (p.run (p.run s c op).store c' op').store = (p.run (p.run s c' op').store c op).store := by
  obtain ⟨F, hF, hdisjoint⟩ := exists_separating hapart
  -- the parts in `F` are those of the second operation, the others those of the first
  have hrest : ∀ r, p.Touches s op r → (!F r) = true := fun r hr => by rw [hdisjoint r hr]; rfl
  have hothers : ∀ r, p.Touches s op' r → (!F r) = false := fun r hr => by rw [hF r hr]; rfl
  refine h.ext F ?_ ?_
  · have hsecond := congrArg Outcome.store
      (h.run_after c c' hs hop hop' hapart hF hdisjoint)
    have hfirst := h.only_run c (h.keeps c' op' hs) hop fun r hr =>
      hdisjoint r (h.touches_run hop' hapart.symm hr)
    exact hsecond.trans hfirst.symm
  · have hsecond := h.only_run c' (h.keeps c op hs) hop' fun r hr =>
      hothers r (h.touches_run hop hapart hr)
    have hfirst := congrArg Outcome.store
      (h.run_after c' c hs hop' hop hapart.symm hrest hothers)
    exact hsecond.trans hfirst.symm

/-- An operation changes the store after another one just if it changes it
before. -/
theorem store_eq_iff (h : p.Confined mutates holds) (hs : holds s) (hop : mutates op)
    (hop' : mutates op') (hapart : p.Apart s op op') :
    (p.run (p.run s c op).store c' op').store = (p.run s c op).store ↔
      (p.run s c' op').store = s := by
  obtain ⟨F, hF, hdisjoint⟩ := exists_separating hapart
  have hothers : ∀ r, p.Touches s op' r → (!F r) = false := fun r hr => by rw [hF r hr]; rfl
  have hsecond : p.only F (p.run (p.run s c op).store c' op').store =
      p.only F (p.run s c' op').store := congrArg Outcome.store
    (h.run_after c c' hs hop hop' hapart hF hdisjoint)
  have hfirst : p.only F (p.run s c op).store = p.only F s := h.only_run c hs hop hdisjoint
  constructor
  · intro hsame
    refine h.ext F ?_ (h.only_run c' hs hop' hothers)
    rw [← hsecond, hsame, hfirst]
  · intro hsame
    refine h.ext F ?_ (h.only_run c' (h.keeps c op hs) hop' fun r hr =>
      hothers r (h.touches_run hop hapart hr))
    rw [hsecond, hsame, hfirst]

/-- Operations with disjoint footprints commute. -/
theorem commute (h : p.Confined mutates holds) (c c' : κ) (hs : holds s) (hop : mutates op)
    (hop' : mutates op') (hapart : p.Apart s op op') : p.Commute s c c' op op' where
  first := (h.answer_after hs hop' hop hapart.symm).1
  second := (h.answer_after hs hop hop' hapart).1
  firstEvents := (h.answer_after hs hop' hop hapart.symm).2
  secondEvents := (h.answer_after hs hop hop' hapart).2
  store := h.store_after hs hop hop' hapart
  changes := h.store_eq_iff hs hop' hop hapart.symm

end Confined

end Parted

end OwnershipRegistry
