import Mathlib.Data.List.Nodup
import OwnershipRegistry.Operation
import OwnershipRegistry.Proofs.Table

/-!
Journals of calls. From the calls and their answers alone one can tell the life
of every entity and of every session: it is made and it goes, in turn, and
nothing goes that is not there. A census is what there is at a moment; each call
turns it as its answer says, so the journal and the census never part.
-/

namespace OwnershipRegistry

/-- The call that an operation makes in the end: a registration that puts up with
one made before is a registration. -/
def Operation.work : Operation → Operation
  | .ensureRegistered t => .register t
  | op => op

/-- A call, its instant and its answer. -/
structure Entry where
  now : Instant
  call : Operation
  answer : Except RegistryError Answer

/-- What a call has done to entities and sessions, by its answer. -/
inductive Deed
  | none
  | registered (t : Target)
  | removed (r : CascadeReport)
  | created (new : NewSession)
  | deleted (id : SessionId)
  | emptied (t : Target)

def Entry.deed (e : Entry) : Deed :=
  match e.call, e.answer with
  | .register t, .ok _ => .registered t
  | .deleteBacking _, .ok (.report r) => .removed r
  | .backingDeleted _, .ok (.report r) => .removed r
  | .createSession new, .ok _ => .created new
  | .deleteSession id, .ok _ => .deleted id
  | .deleteAllSessions t, .ok _ => .emptied t
  | _, _ => .none

/-! ### Lives -/

/-- What befalls an entity or a session. -/
inductive Mark
  | made (owner : Target)
  | gone
  deriving DecidableEq, Repr

/-- Whose the thing is after what has befallen it, latest first; nobody's if it is
not there. -/
def owner? : List Mark → Option Target
  | .made t :: _ => some t
  | _ => none

/-- Making and going take turns, and making comes first. -/
def Alternate : List Mark → Prop
  | [] => True
  | .made _ :: ms => owner? ms = none ∧ Alternate ms
  | .gone :: ms => owner? ms ≠ none ∧ Alternate ms

/-- What a deed does to an entity. -/
def Deed.entityMarks (t : Target) : Deed → List Mark
  | registered t' => if t' = t then [.made t] else []
  | removed r => if r.target = t ∧ r.entityRemoved = true then [.gone] else []
  | _ => []

/-- What a deed does to a session that has been somebody's so far. -/
def Deed.sessionMarks (id : SessionId) (owner : Option Target) : Deed → List Mark
  | created new => if new.id = id then [.made new.target] else []
  | deleted id' => if id' = id then [.gone] else []
  | removed r => List.replicate (r.sessionsRemoved.count id) .gone
  | emptied t => if owner = some t then [.gone] else []
  | _ => []

/-- The life of an entity by a journal, latest first. -/
def entityMarks (t : Target) : List Entry → List Mark
  | [] => []
  | e :: log => e.deed.entityMarks t ++ entityMarks t log

/-- The life of a session by a journal, latest first. -/
def sessionMarks (id : SessionId) : List Entry → List Mark
  | [] => []
  | e :: log => e.deed.sessionMarks id (owner? (sessionMarks id log)) ++ sessionMarks id log

/-- What may befall a thing at once: nothing, or it is made where it was not, or it
goes from where it was. -/
inductive Turns : Option Target → List Mark → Option Target → Prop
  | stays (x : Option Target) : Turns x [] x
  | made (t : Target) : Turns none [.made t] (some t)
  | gone (t : Target) : Turns (some t) [.gone] none

theorem Turns.alternate {x y : Option Target} {new ms : List Mark} (h : Turns x new y)
    (hms : Alternate ms ∧ owner? ms = x) :
    Alternate (new ++ ms) ∧ owner? (new ++ ms) = y := by
  obtain ⟨halt, howner⟩ := hms
  cases h with
  | stays => exact ⟨halt, howner⟩
  | made t => exact ⟨⟨howner, halt⟩, rfl⟩
  | gone t => exact ⟨⟨by simp [howner], halt⟩, rfl⟩

/-! ### The census -/

/-- The entities and the sessions that there are. -/
structure Census where
  entities : Table Target id := ∅
  sessions : Table Session Session.key := ∅

namespace Census

variable {c c' : Census} {now : Instant} {d : Deed} {t : Target} {id : SessionId}

def entity? (c : Census) (t : Target) : Option Target := c.entities.find? t

def owner? (c : Census) (id : SessionId) : Option Target :=
  (c.sessions.find? id.key).map Session.target

/-- The identifiers of the sessions of a target. -/
def idsOf (c : Census) (t : Target) : List SessionId :=
  (c.sessions.rows.filter fun x => x.target == t).map Session.id

/-- The census without the sessions of a target. -/
def emptied (c : Census) (t : Target) : Census :=
  { c with sessions := c.sessions.keep fun x => x.target != t }

/-- The census without an entity and its sessions. -/
def without (c : Census) (t : Target) : Census :=
  { c.emptied t with entities := c.entities.erase t }

/-- How deeds turn a census: what is made was not there, what is deleted was, and
a report names the sessions that go. -/
inductive Step (now : Instant) (c : Census) : Deed → Census → Prop
  | none : Step now c .none c
  | registered (t : Target) (free : c.entities.contains t = false) :
      Step now c (.registered t) { c with entities := c.entities.insert t }
  | removed (r : CascadeReport) (entity : r.entityRemoved = c.entities.contains r.target)
      (sessions : r.sessionsRemoved = c.idsOf r.target) :
      Step now c (.removed r) (c.without r.target)
  | created (new : NewSession) (free : c.sessions.contains new.id.key = false) :
      Step now c (.created new) { c with sessions := c.sessions.insert (new.toSession now) }
  | deleted (id : SessionId) (present : c.sessions.contains id.key = true) :
      Step now c (.deleted id) { c with sessions := c.sessions.erase id.key }
  | emptied (t : Target) : Step now c (.emptied t) (c.emptied t)

theorem entity?_eq_none : c.entity? t = none ↔ c.entities.contains t = false :=
  Table.find?_eq_none_iff

theorem entity?_ne_none : c.entity? t ≠ none ↔ c.entities.contains t = true := by
  rw [Ne, entity?_eq_none, Bool.not_eq_false]

theorem entity?_eq_some (h : c.entities.contains t = true) : c.entity? t = some t := by
  obtain ⟨t', ht, rfl⟩ := Table.contains_iff.mp h
  exact Table.find?_eq_some_iff.mpr ⟨ht, rfl⟩

theorem owner?_eq_none : c.owner? id = none ↔ c.sessions.contains id.key = false := by
  rw [owner?, Option.map_eq_none_iff, Table.find?_eq_none_iff]

theorem owner?_ne_none : c.owner? id ≠ none ↔ c.sessions.contains id.key = true := by
  rw [Ne, owner?_eq_none, Bool.not_eq_false]

theorem mem_idsOf : id ∈ c.idsOf t ↔ c.owner? id = some t := by
  simp only [idsOf, owner?, List.mem_map, List.mem_filter, beq_iff_eq, Option.map_eq_some_iff,
    Table.find?_eq_some_iff]
  constructor
  · rintro ⟨x, ⟨hx, rfl⟩, rfl⟩
    exact ⟨x, ⟨hx, rfl⟩, rfl⟩
  · rintro ⟨x, ⟨hx, hkey⟩, rfl⟩
    exact ⟨x, ⟨hx, rfl⟩, SessionId.key_injective hkey⟩

theorem idsOf_nodup (c : Census) (t : Target) : (c.idsOf t).Nodup := by
  refine List.pairwise_map.mpr ((c.sessions.ascending.filter _).imp fun {x y} hxy heq => ?_)
  have hkey : x.key = y.key := congrArg SessionId.key heq
  rw [hkey, Std.compare_self] at hxy
  cases hxy

theorem owner?_emptied :
    (c.emptied t).owner? id = if c.owner? id = some t then none else c.owner? id := by
  rw [owner?, emptied, Table.find?_keep, owner?]
  cases c.sessions.find? id.key with
  | none => rfl
  | some x => by_cases hx : x.target = t <;> simp [Option.filter, hx]

/-- A deed makes of every entity what its answer says. -/
theorem Step.entity (h : c.Step now d c') (t : Target) :
    Turns (c.entity? t) (d.entityMarks t) (c'.entity? t) := by
  cases h with
  | none | created | deleted | emptied => exact .stays _
  | registered t' free =>
      have hfind : (c.entities.insert t').find? t =
          if t = t' then some t' else c.entities.find? t :=
        Table.find?_insert free
      simp only [Deed.entityMarks, entity?]
      rw [hfind]
      by_cases ht : t' = t
      · subst ht
        rw [if_pos rfl, if_pos rfl, Table.find?_eq_none_iff.mpr free]
        exact .made t'
      · rw [if_neg ht, if_neg fun h => ht h.symm]
        exact .stays _
  | removed r entity sessions =>
      simp only [Deed.entityMarks, entity?, without]
      rw [Table.find?_erase, entity]
      by_cases ht : r.target = t
      · subst ht
        rw [if_pos rfl]
        cases hc : c.entities.contains r.target with
        | true =>
            have hsome : c.entities.find? r.target = some r.target := entity?_eq_some hc
            rw [hsome, if_pos ⟨rfl, rfl⟩]
            exact .gone _
        | false =>
            rw [Table.find?_eq_none_iff.mpr hc, if_neg (by simp)]
            exact .stays _
      · rw [if_neg fun h => ht h.1, if_neg fun h => ht h.symm]
        exact .stays _

/-- A deed makes of every session what its answer says. -/
theorem Step.session (h : c.Step now d c') (id : SessionId) :
    Turns (c.owner? id) (d.sessionMarks id (c.owner? id)) (c'.owner? id) := by
  have hemptied (t : Target) : Turns (c.owner? id) (if c.owner? id = some t then [.gone] else [])
      ((c.emptied t).owner? id) := by
    rw [owner?_emptied]
    split_ifs with ht
    · rw [ht]
      exact .gone t
    · exact .stays _
  cases h with
  | none | registered => exact .stays _
  | emptied t => exact hemptied t
  | removed r entity sessions =>
      -- a report names each of its sessions once
      have hcount : List.replicate (r.sessionsRemoved.count id) Mark.gone =
          if c.owner? id = some r.target then [.gone] else [] := by
        rw [sessions]
        by_cases hid : c.owner? id = some r.target
        · rw [if_pos hid, List.count_eq_one_of_mem (c.idsOf_nodup r.target) (mem_idsOf.mpr hid)]
          rfl
        · rw [if_neg hid, List.count_eq_zero_of_not_mem fun h => hid (mem_idsOf.mp h)]
          rfl
      simp only [Deed.sessionMarks]
      rw [hcount]
      exact hemptied r.target
  | created new free =>
      have hfind : (c.sessions.insert (new.toSession now)).find? id.key =
          if id.key = new.id.key then some (new.toSession now) else c.sessions.find? id.key :=
        Table.find?_insert free
      simp only [Deed.sessionMarks, owner?]
      rw [hfind]
      by_cases hid : new.id = id
      · subst hid
        rw [if_pos rfl, if_pos rfl, Table.find?_eq_none_iff.mpr free]
        exact .made new.target
      · rw [if_neg hid, if_neg fun h => hid (SessionId.key_injective h).symm]
        exact .stays _
  | deleted id' present =>
      simp only [Deed.sessionMarks, owner?]
      rw [Table.find?_erase]
      by_cases hid : id' = id
      · subst hid
        rw [if_pos rfl, if_pos rfl]
        cases hx : c.sessions.find? id'.key with
        | none =>
            rw [Table.find?_eq_none_iff.mp hx] at present
            cases present
        | some x => exact .gone x.target
      · rw [if_neg hid, if_neg fun h => hid (SessionId.key_injective h).symm]
        exact .stays _

/-- A session that is there after a deed was there before or was made now. -/
theorem Step.mem_sessions (h : c.Step now d c') {x : Session} (hx : x ∈ c'.sessions.rows) :
    x ∈ c.sessions.rows ∨ x.createdAt = now := by
  cases h with
  | none | registered => exact .inl hx
  | removed | emptied => exact .inl (Table.mem_rows_keep.mp hx).1
  | deleted => exact .inl (Table.mem_rows_erase.mp hx).1
  | created new free =>
      rcases (Table.mem_rows_insert free).mp hx with rfl | hx
      · exact .inr rfl
      · exact .inl hx

end Census

end OwnershipRegistry
