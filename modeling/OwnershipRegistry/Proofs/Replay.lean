import OwnershipRegistry.Event
import OwnershipRegistry.Operation
import OwnershipRegistry.Proofs.Journal

/-!
The log as a journal of what there is. Seven of the messages record a change, and
by the fields beside them the change can be made again on a roll of backing
records, entities and sessions. Where a line tells how many sessions went, that is
a claim about the roll as it was before the line.
-/

namespace OwnershipRegistry

/-! ### Lines -/

/-- What is written of an event. -/
structure Line where
  message : String
  fields : List (String × FieldValue)
  deriving DecidableEq, Repr

def Event.line (e : Event) : Line := ⟨e.message, e.fields⟩

/-- Reads a target off its text, whose first colon ends the kind. -/
def Target.ofText? (s : String) : Option Target :=
  match s.toList.dropWhile (· != ':') with
  | ':' :: id => Target.ofTag? (.ofList id) (.ofList (s.toList.takeWhile (· != ':')))
  | _ => none

theorem Target.ofText?_text (t : Target) : Target.ofText? t.text = some t := by
  obtain ⟨k, id⟩ := t
  have hchars : (Target.text ⟨k, id⟩).toList = k.tag.toList ++ ':' :: id.toList := by
    rw [text, String.toList_append, String.toList_append, List.append_assoc]
    rfl
  have htag : ∀ c ∈ k.tag.toList, (c != ':') = true := by cases k <;> simp [Kind.tag]
  rw [ofText?, hchars, List.dropWhile_append_of_pos htag, List.takeWhile_append_of_pos htag,
    List.dropWhile_cons_of_neg (by simp), List.takeWhile_cons_of_neg (by simp), List.append_nil]
  simp only [String.ofList_toList, ofTag?, Kind.ofTag?_tag, Option.map_some]

/-- A change that the log records. -/
inductive Record
  | backingAdded (target : Target)
  | registered (target : Target)
  | created (id : SessionId) (owner : Target)
  | deleted (id : SessionId)
  /-- The sessions of a target have gone, so many of them. -/
  | emptied (target : Target) (sessions : Nat)
  | entityRemoved (target : Target) (sessions : Nat)
  | backingRemoved (target : Target) (sessions : Nat)
  deriving DecidableEq, Repr

namespace Line

def text? (l : Line) (field : String) : Option String :=
  match l.fields.lookup field with
  | some (.text s) => some s
  | _ => none

def number? (l : Line) (field : String) : Option Nat :=
  match l.fields.lookup field with
  | some (.number n) => some n
  | _ => none

/-- The target that a line names in one field. -/
def entity? (l : Line) : Option Target := (l.text? "entity").bind Target.ofText?

/-- The change that a line records, if it records one. -/
def record? (l : Line) : Option Record :=
  match l.message with
  | "backing record inserted" => l.entity?.map .backingAdded
  | "entity registered" => do
    return .registered (← Target.ofTag? (← l.text? "target_id") (← l.text? "target_type"))
  | "session created" => do return .created ⟨← l.text? "session"⟩ (← l.entity?)
  | "session deleted" => do return .deleted ⟨← l.text? "session"⟩
  | "sessions deleted for entity" => do return .emptied (← l.entity?) (← l.number? "count")
  | "entity removed by deletion hook" => do
    return .entityRemoved (← l.entity?) (← l.number? "sessions_removed")
  | "backing record deleted" => do
    return .backingRemoved (← l.entity?) (← l.number? "sessions_removed")
  | _ => none

end Line

/-- The change that an event tells of. -/
def Event.record? : Event → Option Record
  | backingInserted t => some (.backingAdded t)
  | registered t => some (.registered t)
  | sessionCreated id t => some (.created id t)
  | sessionDeleted id => some (.deleted id)
  | sessionsDeleted t n => some (.emptied t n)
  | removedByHook t n => some (.entityRemoved t n)
  | backingDeleted t _ n => some (.backingRemoved t n)
  | _ => none

/-- Nothing of the change is lost in the writing. -/
theorem Event.record?_line (e : Event) : e.line.record? = e.record? := by
  cases e with
  | backingInserted t => exact congrArg (Option.map Record.backingAdded) t.ofText?_text
  | registered t =>
      obtain ⟨k, id⟩ := t
      cases k <;> rfl
  | sessionCreated id t =>
      exact congrArg (Option.bind · fun t => some (Record.created id t)) t.ofText?_text
  | sessionDeleted id => rfl
  | sessionsDeleted t n =>
      exact congrArg (Option.bind · fun t => some (Record.emptied t n)) t.ofText?_text
  | removedByHook t n =>
      exact congrArg (Option.bind · fun t => some (Record.entityRemoved t n)) t.ofText?_text
  | backingDeleted t entity n =>
      exact congrArg (Option.bind · fun t => some (Record.backingRemoved t n)) t.ofText?_text
  | registering | hookWhileBacked | absentAtHook | lockTimedOut | journalModeSet
  | migrationPresent | applyingMigration | storeOpened => rfl

/-- The changes that a log records, read off its lines. -/
def records (log : List Event) : List Record := (log.map Event.line).filterMap Line.record?

theorem records_eq (log : List Event) : records log = log.filterMap Event.record? := by
  rw [records, List.filterMap_map]
  exact List.filterMap_congr fun e _ => e.record?_line

@[simp] theorem records_nil : records [] = [] := rfl

@[simp] theorem records_cons (e : Event) (log : List Event) :
    records (e :: log) = e.record?.toList ++ records log := by
  rw [records_eq, records_eq, List.filterMap_cons]
  cases e.record? <;> rfl

theorem records_append (log log' : List Event) :
    records (log ++ log') = records log ++ records log' := by
  simp only [records_eq, List.filterMap_append]

/-! ### Rolls -/

/-- A session with its owner, which is all that the log tells of it. -/
structure Member where
  id : SessionId
  owner : Target
  deriving DecidableEq, Repr

def Member.key (m : Member) : List UInt8 := m.id.key

def Session.member (x : Session) : Member := ⟨x.id, x.target⟩

theorem compare_member (x y : Session) : compare x.member.key y.member.key = compare x.key y.key :=
  rfl

/-- The backing records, the entities and the sessions that there are. -/
structure Roll where
  bots : Table String octets := ∅
  users : Table String octets := ∅
  entities : Table Target id := ∅
  sessions : Table Member Member.key := ∅
  deriving DecidableEq, Repr

namespace Roll

/-- Nothing is there. -/
def empty : Roll := {}

def backing (r : Roll) : Kind → Table String octets
  | .bot => r.bots
  | .user => r.users

def setBacking (r : Roll) (k : Kind) (ids : Table String octets) : Roll :=
  match k with
  | .bot => { r with bots := ids }
  | .user => { r with users := ids }

/-- The roll without the sessions of a target. -/
def emptied (r : Roll) (t : Target) : Roll :=
  { r with sessions := r.sessions.keep fun m => m.owner != t }

/-- The roll without an entity and its sessions. -/
def without (r : Roll) (t : Target) : Roll :=
  { r.emptied t with entities := r.entities.erase t }

/-- Makes a change again. -/
def follow (r : Roll) : Record → Roll
  | .backingAdded t => r.setBacking t.kind ((r.backing t.kind).insert t.id)
  | .registered t => { r with entities := r.entities.insert t }
  | .created id owner => { r with sessions := r.sessions.insert ⟨id, owner⟩ }
  | .deleted id => { r with sessions := r.sessions.erase id.key }
  | .emptied t _ => r.emptied t
  | .entityRemoved t _ => r.without t
  | .backingRemoved t _ =>
    (r.setBacking t.kind ((r.backing t.kind).erase (octets t.id))).without t

def replay (r : Roll) (xs : List Record) : Roll := xs.foldl follow r

end Roll

/-- How many sessions went, if a record tells it. -/
def Record.count? : Record → Option Nat
  | emptied _ n | entityRemoved _ n | backingRemoved _ n => some n
  | _ => none

/-- What records tell of the number of sessions that went is what following them
takes from a roll. -/
def Roll.Counts (r : Roll) : List Record → Prop
  | [] => True
  | x :: xs =>
    (∀ n, x.count? = some n → (r.follow x).sessions.size + n = r.sessions.size) ∧
      (r.follow x).Counts xs

/-- A log leads from one roll to another, and what it tells of numbers is right. -/
structure Leads (log : List Event) (r r' : Roll) : Prop where
  replay : r.replay (records log) = r'
  counts : r.Counts (records log)

variable {log log' : List Event} {r r' r'' : Roll} {t : Target}

theorem Roll.counts_append {xs ys : List Record} (h : r.Counts xs) (h' : (r.replay xs).Counts ys) :
    r.Counts (xs ++ ys) := by
  induction xs generalizing r with
  | nil => exact h'
  | cons x xs ih => exact ⟨h.1, ih h.2 h'⟩

theorem Leads.nil (r : Roll) : Leads [] r r := ⟨rfl, trivial⟩

theorem Leads.append (h : Leads log r r') (h' : Leads log' r' r'') :
    Leads (log ++ log') r r'' := by
  have hfirst := h.replay
  constructor
  · rw [records_append, Roll.replay, List.foldl_append]
    exact (congrArg (Roll.replay · (records log')) hfirst).trans h'.replay
  · rw [records_append]
    exact Roll.counts_append h.counts (hfirst ▸ h'.counts)

/-- A log that records nothing leads nowhere. -/
theorem Leads.of_records_nil (h : records log = []) (r : Roll) : Leads log r r := by
  constructor
  · rw [h]
    rfl
  · rw [h]
    trivial

/-- A log with one record does what the record tells. -/
theorem Leads.of_record {x : Record} (h : records log = [x])
    (hcount : ∀ n, x.count? = some n → (r.follow x).sessions.size + n = r.sessions.size) :
    Leads log r (r.follow x) := by
  constructor
  · rw [h]
    rfl
  · rw [h]
    exact ⟨hcount, trivial⟩

/-! ### What changes leave -/

namespace Roll

@[simp] theorem backing_setBacking (r : Roll) (k k' : Kind) (ids : Table String octets) :
    (r.setBacking k ids).backing k' = if k' = k then ids else r.backing k' := by
  cases k <;> cases k' <;> rfl

@[simp] theorem entities_setBacking (r : Roll) (k : Kind) (ids : Table String octets) :
    (r.setBacking k ids).entities = r.entities := by
  cases k <;> rfl

@[simp] theorem sessions_setBacking (r : Roll) (k : Kind) (ids : Table String octets) :
    (r.setBacking k ids).sessions = r.sessions := by
  cases k <;> rfl

@[simp] theorem backing_without (r : Roll) (t : Target) (k : Kind) :
    (r.without t).backing k = r.backing k := by
  cases k <;> rfl

/-- How many sessions a target has. -/
def held (r : Roll) (t : Target) : Nat := r.sessions.rows.countP (·.owner == t)

theorem size_emptied (r : Roll) (t : Target) :
    (r.emptied t).sessions.size + r.held t = r.sessions.size := by
  have hrest : (r.emptied t).sessions.size = r.sessions.rows.countP fun m => !(m.owner == t) := by
    rw [List.countP_eq_length_filter]
    rfl
  rw [hrest, held, Nat.add_comm, Table.size,
    List.length_eq_countP_add_countP (fun m : Member => m.owner == t)]
  simp only [Bool.not_eq_true, Bool.decide_eq_false]

end Roll

end OwnershipRegistry
