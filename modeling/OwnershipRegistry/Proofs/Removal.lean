import OwnershipRegistry.Proofs.Outcome

/-!
Removals. What there is of a target goes by two calls, in any order and any
number of times: the deletion of its backing record, and the notice that the
record has gone. Where each call reports what it takes and leaves the rest, a
history of them ends where its first deletion alone would have led, and its
reports name everything that has gone, each part once.
-/

namespace OwnershipRegistry

/-- The calls by which what there is of a target goes. -/
inductive Removal
  | deletion
  /-- The store is told that the backing record has gone. -/
  | notice
  deriving DecidableEq, Repr

def Removal.operation (t : Target) : Removal → Operation
  | deletion => .deleteBacking t
  | notice => .backingDeleted t

/-- What there is of a target. -/
structure Estate where
  backed : Bool
  registered : Bool
  sessions : List SessionId
  deriving DecidableEq, Repr

namespace Estate

/-- Nothing is there. -/
def bare : Estate := ⟨false, false, []⟩

/-- What a removal leaves: a notice leaves the backing record alone. -/
def rest (e : Estate) : Removal → Estate
  | .deletion => bare
  | .notice => ⟨e.backed, false, []⟩

def report (e : Estate) (t : Target) : Removal → CascadeReport
  | .deletion => ⟨t, e.backed, e.registered, e.sessions⟩
  | .notice => ⟨t, false, e.registered, e.sessions⟩

theorem report_bare (t : Target) (r : Removal) : bare.report t r = .empty t := by
  cases r <;> rfl

/-- What some reports name and what is left make up what there was: each part is
left, or exactly one report names it. -/
structure Balance (t : Target) (e left : Estate) (reports : List CascadeReport) : Prop where
  target : ∀ r ∈ reports, r.target = t
  backing : reports.countP (·.backingRemoved) + left.backed.toNat = e.backed.toNat
  entity : reports.countP (·.entityRemoved) + left.registered.toNat = e.registered.toNat
  sessions : reports.flatMap (·.sessionsRemoved) ++ left.sessions = e.sessions
  once : ∀ id, reports.countP (·.sessionsRemoved.contains id) +
    (left.sessions.contains id).toNat = (e.sessions.contains id).toNat

variable {t : Target} {e left : Estate} {reports : List CascadeReport}

theorem Balance.nil : Balance t e e [] where
  target r hr := by cases hr
  backing := Nat.zero_add _
  entity := Nat.zero_add _
  sessions := rfl
  once id := Nat.zero_add _

theorem countP_cons_toNat (p : CascadeReport → Bool) (r : CascadeReport)
    (reports : List CascadeReport) :
    (r :: reports).countP p = reports.countP p + (p r).toNat := by
  rw [List.countP_cons]
  cases p r <;> rfl

/-- A removal names what it does not leave. -/
theorem Balance.cons (r : Removal) (h : Balance t (e.rest r) left reports) :
    Balance t e left (e.report t r :: reports) where
  target x hx := by
    rcases List.mem_cons.mp hx with rfl | hx
    · cases r <;> rfl
    · exact h.target x hx
  backing := by
    rw [countP_cons_toNat, Nat.add_right_comm, h.backing]
    cases r <;> simp [rest, report, bare]
  entity := by
    rw [countP_cons_toNat, Nat.add_right_comm, h.entity]
    cases r <;> simp [rest, report, bare]
  sessions := by
    rw [List.flatMap_cons, List.append_assoc, h.sessions]
    cases r <;> exact List.append_nil _
  once id := by
    rw [countP_cons_toNat, Nat.add_right_comm, h.once]
    cases r <;> exact Nat.zero_add _

end Estate

variable {σ κ : Type}

/-- Removals one after another, each under its own circumstances: their answers
and the store that they leave. -/
def removals (run : σ → κ → Operation → Outcome σ Answer) (t : Target) :
    σ → List (κ × Removal) → List (Except RegistryError Answer) × σ
  | s, [] => ([], s)
  | s, (c, r) :: history =>
    let o := run s c (r.operation t)
    let (answers, s) := removals run t o.store history
    (o.answer :: answers, s)

variable {run : σ → κ → Operation → Outcome σ Answer} {allowed : κ → Prop} {t : Target}

/-- All removals of a target converge: any of them that delete its backing record
succeed, leave the same and name what there was, each part once; and whatever
follows them finds nothing and leaves it at that. -/
structure Converges (run : σ → κ → Operation → Outcome σ Answer) (allowed : κ → Prop)
    (t : Target) (e : Estate) (s gone : σ) : Prop where
  leaves : ∀ history : List (κ × Removal), (∀ c ∈ history, allowed c.1) →
    (∃ c ∈ history, c.2 = .deletion) → ∃ reports : List CascadeReport,
      removals run t s history = (reports.map fun r => .ok (.report r), gone) ∧
        e.Balance t .bare reports
  again : ∀ history : List (κ × Removal), (∀ c ∈ history, allowed c.1) →
    removals run t gone history = (history.map fun _ => .ok (.report (.empty t)), gone)

/-- Stores that hold something which no removal breaks, and in which a removal
reports what it takes and leaves the rest. A deletion takes along whatever other
removals would have taken before it or after it. -/
structure Removes (run : σ → κ → Operation → Outcome σ Answer) (allowed : κ → Prop)
    (t : Target) (holds : σ → Prop) (estate : σ → Estate) (left : σ → Removal → σ) : Prop where
  answer : ∀ {s c} r, holds s → allowed c →
    (run s c (r.operation t)).answer = .ok (.report ((estate s).report t r))
  store : ∀ {s c} r, holds s → allowed c → (run s c (r.operation t)).store = left s r
  keeps : ∀ {s} r, holds s → holds (left s r)
  remains : ∀ {s} r, holds s → estate (left s r) = (estate s).rest r
  absorbed : ∀ {s} r, holds s → left (left s r) .deletion = left s .deletion
  settled : ∀ {s} r, holds s → left (left s .deletion) r = left s .deletion

namespace Removes

variable {holds : σ → Prop} {estate : σ → Estate} {left : σ → Removal → σ} {s : σ}
  {history : List (κ × Removal)}

/-- After a deletion nothing more goes. -/
theorem removals_of_deletion (h : Removes run allowed t holds estate left) (hs : holds s)
    (hall : ∀ c ∈ history, allowed c.1) :
    removals run t (left s .deletion) history =
      (history.map fun _ => .ok (.report (.empty t)), left s .deletion) := by
  induction history with
  | nil => rfl
  | cons first history ih =>
      obtain ⟨c, r⟩ := first
      have hc : allowed c := hall _ List.mem_cons_self
      have hgone : holds (left s .deletion) := h.keeps .deletion hs
      have hreport : (estate (left s .deletion)).report t r = .empty t := by
        rw [h.remains .deletion hs]
        exact Estate.report_bare t r
      rw [removals, h.answer r hgone hc, h.store r hgone hc, h.settled r hs, hreport,
        ih fun c' hc' => hall c' (List.mem_cons_of_mem _ hc')]
      rfl

/-- Whatever removals there are, their reports and what is left make up what
there was, and a deletion would still lead to the same. -/
theorem removals_balance (h : Removes run allowed t holds estate left) (hs : holds s)
    (hall : ∀ c ∈ history, allowed c.1) :
    (∃ reports : List CascadeReport,
      (removals run t s history).1 = (reports.map fun r => .ok (.report r)) ∧
        (estate s).Balance t (estate (removals run t s history).2) reports) ∧
      holds (removals run t s history).2 ∧
      left (removals run t s history).2 .deletion = left s .deletion := by
  -- by induction on the history; what holds at first holds after each removal
  induction history generalizing s with
  | nil => exact ⟨⟨[], rfl, .nil⟩, hs, rfl⟩
  | cons first history ih =>
      obtain ⟨c, r⟩ := first
      have hc : allowed c := hall _ List.mem_cons_self
      obtain ⟨⟨reports, hanswers, hbalance⟩, hend, habsorbed⟩ :=
        ih (h.keeps r hs) fun c' hc' => hall c' (List.mem_cons_of_mem _ hc')
      rw [h.remains r hs] at hbalance
      rw [removals, h.answer r hs hc, h.store r hs hc]
      refine ⟨⟨(estate s).report t r :: reports, ?_, hbalance.cons⟩, hend, ?_⟩
      · rw [List.map_cons, ← hanswers]
      · exact habsorbed.trans (h.absorbed r hs)

/-- Removals that delete the backing record leave what one deletion leaves. -/
theorem removals_store (h : Removes run allowed t holds estate left) (hs : holds s)
    (hall : ∀ c ∈ history, allowed c.1) (hdeleted : ∃ c ∈ history, c.2 = .deletion) :
    (removals run t s history).2 = left s .deletion := by
  induction history generalizing s with
  | nil =>
      obtain ⟨c, hc, -⟩ := hdeleted
      cases hc
  | cons first history ih =>
      obtain ⟨c, r⟩ := first
      have hc : allowed c := hall _ List.mem_cons_self
      have hrest : ∀ c ∈ history, allowed c.1 := fun c' hc' => hall c' (List.mem_cons_of_mem _ hc')
      show (removals run t (run s c (r.operation t)).store history).2 = left s .deletion
      rw [h.store r hs hc]
      cases r with
      | deletion => rw [h.removals_of_deletion hs hrest]
      | notice =>
          obtain ⟨c', hc', hdeletion⟩ := hdeleted
          rcases List.mem_cons.mp hc' with rfl | hc'
          · cases hdeletion
          · rw [ih (h.keeps .notice hs) hrest ⟨c', hc', hdeletion⟩, h.absorbed .notice hs]

theorem converges (h : Removes run allowed t holds estate left) (hs : holds s) :
    Converges run allowed t (estate s) s (left s .deletion) where
  leaves history hall hdeleted := by
    obtain ⟨⟨reports, hanswers, hbalance⟩, -⟩ := h.removals_balance hs hall
    have hstore := h.removals_store hs hall hdeleted
    rw [hstore, h.remains .deletion hs] at hbalance
    exact ⟨reports, Prod.ext hanswers hstore, hbalance⟩
  again history hall := h.removals_of_deletion hs hall

end Removes

end OwnershipRegistry
