import OwnershipRegistry.Proofs.File.Blanks
import OwnershipRegistry.Proofs.File.Findings

/-!
Corrupt sessions. Whoever asks for a session is told what its own row tells, and whoever
asks for the sessions of a target what the rows of that target tell. A row may hold cells
that are no texts, be of a kind that is none of the kinds, or have been made at no instant;
it then tells the first of these. A listing reads all its rows before it looks at what
instants they name, so of its rows the first that cannot be read comes before the first
without an instant.
-/

namespace OwnershipRegistry

open OwnershipRegistry.Except (error? error?_bind error?_eq_some error?_eq_none ok_bind bind_eq_ok
  mapM_eq_ok mem_of_mapM_eq_ok exists_mapM_eq_ok mapM_eq_ok_iff_forall₂ mapM_append_of_error)

/-! ### What a row tells -/

/-- What is wrong with a cell that is no text. -/
def Cell.fault? (c : Cell) (index : Nat) (column : String) : Option Fault :=
  error? (c.read index column)

/-- What is wrong with the first cell of a row that is no text. -/
def SessionRow.fault? (r : SessionRow) : Option Fault :=
  (r.id.fault? 0 "id").or <| (r.targetId.fault? 1 "target_id").or <|
    (r.targetKind.fault? 2 "target_type").or <|
      (r.name.bind fun c => c.fault? 3 "name").or (r.createdAt.fault? 4 "created_at")

/-- The row that is filled with texts. -/
def SessionText.row (x : SessionText) : SessionRow :=
  ⟨.ofString x.id, .ofString x.targetId, .ofString x.targetKind, x.name.map .ofString,
    .ofString x.createdAt⟩

/-- What a row tells: a session, or the first thing that is wrong with the row. -/
inductive SessionRow.Tells : SessionRow → Except RegistryError Session → Prop
  | unreadable {r : SessionRow} {f : Fault} (cell : r.fault? = some f) :
    Tells r (.error (.storage f))
  | unlisted (x : SessionText) (kind : ∀ k : Kind, x.targetKind ≠ k.tag) :
    Tells x.row (.error (.invalidKind x.targetKind))
  | undated (x : SessionText) {k : Kind} {why : Refusal} (kind : x.targetKind = k.tag)
    (date : Instant.ofStrictText x.createdAt = .error why) :
    Tells x.row (.error (.storage (.badInstant x.id x.createdAt why)))
  | session (x : SessionText) {k : Kind} {i : Instant} (kind : x.targetKind = k.tag)
    (date : Instant.ofStrictText x.createdAt = .ok i) :
    Tells x.row (.ok ⟨⟨x.id⟩, ⟨k, x.targetId⟩, x.name, i⟩)

namespace SessionRow

variable {r : SessionRow} {f : Fault} {x : SessionText}

theorem error?_read (r : SessionRow) : error? r.read = r.fault? := by
  have hname : error? (r.name.mapM fun c => c.read 3 "name") =
      r.name.bind fun c => c.fault? 3 "name" := by
    cases r.name with
    | none => rfl
    | some c =>
      rw [Option.mapM_some, Option.bind_some, Cell.fault?]
      cases c.read 3 "name" <;> rfl
  unfold read fault?
  refine error?_bind fun _ => error?_bind fun _ => error?_bind fun _ => ?_
  rw [← hname]
  refine error?_bind fun _ => ?_
  rw [Cell.fault?]
  cases r.createdAt.read 4 "created_at" <;> rfl

theorem mapM_read_eq_ok {name : Option Cell} {index : Nat} {column : String} {n : Option String} :
    (name.mapM fun c => c.read index column) = .ok n ↔ name = n.map .ofString := by
  cases name with
  | none => cases n <;> simp [pure, Except.pure]
  | some c =>
      rw [Option.mapM_some]
      constructor
      · intro h
        obtain ⟨t, ht, heq⟩ := bind_eq_ok.mp h
        obtain rfl : some t = n := Except.ok.inj heq
        rw [Option.map_some, Cell.read_eq_ok.mp ht]
      · intro h
        obtain ⟨t, rfl, ht⟩ := Option.map_eq_some_iff.mp h.symm
        rw [← ht, Cell.read_ofString]
        rfl

theorem read_eq_ok : r.read = .ok x ↔ r = x.row := by
  obtain ⟨id, targetId, targetKind, name, createdAt⟩ := r
  obtain ⟨xid, xtargetId, xtargetKind, xname, xcreatedAt⟩ := x
  simp only [read, bind_eq_ok, Cell.read_eq_ok, mapM_read_eq_ok, SessionText.row]
  constructor
  · rintro ⟨_, rfl, _, rfl, _, rfl, n, rfl, _, rfl, heq⟩
    cases heq
    rfl
  · intro h
    cases h
    exact ⟨_, rfl, _, rfl, _, rfl, _, rfl, _, rfl, rfl⟩

theorem fault?_eq_none : r.fault? = none ↔ ∃ x : SessionText, x.row = r := by
  rw [← error?_read, error?_eq_none]
  exact exists_congr fun x => read_eq_ok.trans eq_comm

theorem read_eq_error : r.read = .error f ↔ r.fault? = some f := by
  rw [← error?_read, error?_eq_some]

/-- A row is read before its kind and its instant are looked at. -/
def told (r : SessionRow) : Except RegistryError Session :=
  r.read.mapError .ofFault >>= SessionText.toSession

/-- A cell that is no text is not taken for a lock. -/
theorem ofFault_of_fault (h : r.fault? = some f) : RegistryError.ofFault f = .storage f :=
  RegistryError.ofFault_of_lasting (r.read_lasting f (read_eq_error.mpr h))

theorem told_of_fault (h : r.fault? = some f) : r.told = .error (.storage f) := by
  rw [told, read_eq_error.mpr h, Except.mapError_error, ofFault_of_fault h]
  rfl

end SessionRow

namespace SessionText

variable {x : SessionText} {k : Kind}

theorem row_inj {y : SessionText} : x.row = y.row ↔ x = y := by
  constructor
  · intro h
    have hx : x.row.read = .ok x := SessionRow.read_eq_ok.mpr rfl
    have hy : x.row.read = .ok y := SessionRow.read_eq_ok.mpr h
    exact Except.ok.inj (hx.symm.trans hy)
  · exact congrArg row

theorem row_told (x : SessionText) : x.row.told = x.toSession := by
  rw [SessionRow.told, SessionRow.read_eq_ok.mpr rfl, Except.mapError_ok, ok_bind]

theorem toSession_of_unlisted (h : ∀ k : Kind, x.targetKind ≠ k.tag) :
    x.toSession = .error (.invalidKind x.targetKind) := by
  have htag : Kind.ofTag? x.targetKind = none := by
    by_contra hsome
    obtain ⟨k, hk⟩ := Kind.ofTag?_ne_none.mp hsome
    exact h k hk
  rw [toSession, Target.parse, Target.ofTag?, htag]
  rfl

theorem toSession_of_listed (h : x.targetKind = k.tag) :
    x.toSession = match Instant.ofStrictText x.createdAt with
      | .ok i => .ok ⟨⟨x.id⟩, ⟨k, x.targetId⟩, x.name, i⟩
      | .error why => .error (.storage (.badInstant x.id x.createdAt why)) := by
  have hparse : Target.parse x.targetId x.targetKind = .ok ⟨k, x.targetId⟩ :=
    Target.parse_eq_ok.mpr ⟨rfl, h⟩
  rw [toSession, hparse, ok_bind]
  rfl

end SessionText

namespace SessionRow

variable {r : SessionRow} {y : Except RegistryError Session}

theorem tells_told (r : SessionRow) : r.Tells r.told := by
  cases hfault : r.fault? with
  | some f =>
      rw [told_of_fault hfault]
      exact .unreadable hfault
  | none =>
      obtain ⟨x, rfl⟩ := fault?_eq_none.mp hfault
      rw [SessionText.row_told]
      by_cases hkind : ∃ k : Kind, x.targetKind = k.tag
      · obtain ⟨k, hk⟩ := hkind
        rw [SessionText.toSession_of_listed hk]
        cases hdate : Instant.ofStrictText x.createdAt with
        | ok i => exact .session x hk hdate
        | error why => exact .undated x hk hdate
      · have hnone : ∀ k : Kind, x.targetKind ≠ k.tag := not_exists.mp hkind
        rw [SessionText.toSession_of_unlisted hnone]
        exact .unlisted x hnone

/-- A row tells one thing. -/
theorem tells_iff : r.Tells y ↔ r.told = y := by
  constructor
  · intro h
    cases h with
    | unreadable hfault => exact told_of_fault hfault
    | unlisted x hkind => rw [SessionText.row_told, SessionText.toSession_of_unlisted hkind]
    | undated x hkind hdate =>
        rw [SessionText.row_told, SessionText.toSession_of_listed hkind, hdate]
    | session x hkind hdate =>
        rw [SessionText.row_told, SessionText.toSession_of_listed hkind, hdate]
  · rintro rfl
    exact tells_told r

end SessionRow

/-! ### What a listing tells -/

/-- All rows are read before the kind and the instant of any are looked at. -/
def toldAll (rows : List SessionRow) : Except RegistryError (List Session) :=
  (rows.mapM SessionRow.read).mapError .ofFault >>= fun xs => xs.mapM SessionText.toSession

section Listing

variable {rows before after : List SessionRow} {r : SessionRow} {l : List Session}

theorem toldAll_of_legible (h : ∀ r ∈ rows, r.fault? = none) :
    toldAll rows = rows.mapM SessionRow.told := by
  obtain ⟨xs, rfl⟩ : ∃ xs : List SessionText, rows = xs.map SessionText.row :=
    exists_eq_map fun r hr => SessionRow.fault?_eq_none.mp (h r hr)
  have hread : (xs.map SessionText.row).mapM SessionRow.read = .ok xs := by
    rw [List.mapM_map]
    exact (mapM_eq_ok fun x _ => SessionRow.read_eq_ok.mpr rfl).trans (congrArg _ (List.map_id xs))
  rw [toldAll, hread, Except.mapError_ok, ok_bind, List.mapM_map]
  exact congrArg xs.mapM (funext fun x => x.row_told.symm)

/-- The first row that cannot be read is told, whatever else is wrong. -/
theorem toldAll_of_fault {f : Fault} (hbefore : ∀ b ∈ before, b.fault? = none)
    (h : r.fault? = some f) : toldAll (before ++ r :: after) = .error (.storage f) := by
  have hread : (before ++ r :: after).mapM SessionRow.read = .error f := by
    refine mapM_append_of_error (fun b hb => ?_) (SessionRow.read_eq_error.mpr h)
    obtain ⟨x, rfl⟩ := SessionRow.fault?_eq_none.mp (hbefore b hb)
    exact ⟨x, SessionRow.read_eq_ok.mpr rfl⟩
  rw [toldAll, hread, Except.mapError_error, SessionRow.ofFault_of_fault h]
  rfl

/-- Where all rows can be read, the first of them that tells no session is told. -/
theorem toldAll_of_error {e : RegistryError} (hrows : ∀ b ∈ before ++ r :: after, b.fault? = none)
    (hbefore : ∀ b ∈ before, ∃ x, b.Tells (.ok x)) (h : r.Tells (.error e)) :
    toldAll (before ++ r :: after) = .error e := by
  rw [toldAll_of_legible hrows]
  refine mapM_append_of_error (fun b hb => ?_) (SessionRow.tells_iff.mp h)
  obtain ⟨x, hx⟩ := hbefore b hb
  exact ⟨x, SessionRow.tells_iff.mp hx⟩

theorem fault?_eq_none_of_tells {x : Session} (h : r.Tells (.ok x)) : r.fault? = none := by
  cases h with
  | session x => exact SessionRow.fault?_eq_none.mpr ⟨x, rfl⟩

/-- A listing that succeeds lists what every row tells. -/
theorem toldAll_eq_ok : toldAll rows = .ok l ↔ rows.mapM SessionRow.told = .ok l := by
  constructor
  · intro h
    obtain ⟨xs, hread, -⟩ := bind_eq_ok.mp h
    rwa [toldAll_of_legible fun r hr => ?_] at h
    obtain ⟨x, -, hx⟩ := mem_of_mapM_eq_ok (Except.mapError_eq_ok.mp hread) hr
    exact SessionRow.fault?_eq_none.mpr ⟨x, (SessionRow.read_eq_ok.mp hx).symm⟩
  · intro h
    rwa [toldAll_of_legible fun r hr => ?_]
    obtain ⟨x, -, hx⟩ := mem_of_mapM_eq_ok h hr
    exact fault?_eq_none_of_tells (SessionRow.tells_iff.mpr hx)

theorem forall₂_tells_iff :
    List.Forall₂ (fun r x => r.Tells (.ok x)) rows l ↔ toldAll rows = .ok l := by
  simp only [SessionRow.tells_iff, ← mapM_eq_ok_iff_forall₂, toldAll_eq_ok]

theorem exists_toldAll_eq_ok :
    (∃ l, toldAll rows = .ok l) ↔ ∀ r ∈ rows, ∃ x, r.Tells (.ok x) := by
  simp only [toldAll_eq_ok, exists_mapM_eq_ok, SessionRow.tells_iff]

end Listing

/-! ### Readers -/

namespace Database

/-- The rows of the sessions of a target. -/
def heldRows (db : Database) (t : Target) : List SessionRow :=
  db.sessionRows.filter fun s => s.owner == .ofTarget t

variable {db : Database} {t : Target} {r : SessionRow}

theorem mem_heldRows : r ∈ db.heldRows t ↔ r ∈ db.sessionRows ∧ r.owner = .ofTarget t := by
  rw [heldRows, List.mem_filter, beq_iff_eq]

theorem heldRows_ascending (db : Database) (t : Target) :
    (db.heldRows t).Pairwise fun r r' => compare r.id r'.id = .lt :=
  (db.sessions.getD ∅).ascending.filter _

/-- The row of the session of an identifier. -/
def sessionRow? (db : Database) (id : SessionId) : Option SessionRow :=
  (db.sessions.getD ∅).find? (.ofString id.text)

theorem sessionRow?_eq_some {id : SessionId} :
    db.sessionRow? id = some r ↔ r ∈ db.sessionRows ∧ r.id = .ofString id.text :=
  Table.find?_eq_some_iff

end Database

namespace FileStore

open Database

variable {a : Access} {now : Instant} {c : Caller} {db : Database} {id : SessionId} {t : Target}
  {x : Answer}

theorem getSession_eq_told (hr : a.reads = true) (hs : db.has .sessions = true) :
    (run a now db (.getSession id)).answer =
      ((db.sessionRow? id).mapM SessionRow.told).map .foundSession := by
  have hread : a.read db (·.sessionText? id) =
      ((db.sessionRow? id).mapM SessionRow.read).mapError .ofFault := by
    rw [Access.read, if_pos hr, sessionText?, understood_eq (refusal_readSessions hs)]
    rfl
  rw [run, Outcome.answer_map, getSession, Outcome.answer_judge, reading, hread]
  cases db.sessionRow? id with
  | none => rfl
  | some r =>
      simp only [Option.mapM_some, SessionRow.told]
      cases r.read <;> rfl

theorem listSessions_eq_toldAll (hr : a.reads = true) (hs : db.has .sessions = true) :
    (run a now db (.listSessions t)).answer = (toldAll (db.heldRows t)).map .sessions := by
  have hread : a.read db (·.sessionTextsOf t) =
      ((db.heldRows t).mapM SessionRow.read).mapError .ofFault := by
    rw [Access.read, if_pos hr, sessionTextsOf, sessionRowsOf,
      understood_eq (refusal_readSessions hs)]
    rfl
  rw [run, Outcome.answer_map, listSessions, Outcome.answer_judge, reading, hread]
  rfl

/-! ### What a store is told -/

/-- What a store is told that asks for a session. -/
structure Finds (db : Database) (id : SessionId) (answer : Except RegistryError Answer) : Prop where
  absent : answer = .ok (.foundSession none) ↔ ∀ r ∈ db.sessionRows, r.id ≠ .ofString id.text
  told : ∀ r ∈ db.sessionRows, r.id = .ofString id.text → ∀ y, r.Tells y →
    answer = y.map fun x => .foundSession (some x)

/-- What a store is told that asks for the sessions of a target. -/
structure Lists (db : Database) (t : Target) (answer : Except RegistryError Answer) : Prop where
  listed : ∀ l, answer = .ok (.sessions l) ↔
    List.Forall₂ (fun r x => r.Tells (.ok x)) (db.heldRows t) l
  fails : (∃ e, answer = .error e) ↔ ∃ r ∈ db.heldRows t, r.fault? ≠ none ∨
    ∃ (x : SessionText) (why : Refusal), r = x.row ∧ Instant.ofStrictText x.createdAt = .error why
  /-- The first row that cannot be read is told of all that is wrong. -/
  unreadable : ∀ before r after f, db.heldRows t = before ++ r :: after →
    (∀ b ∈ before, b.fault? = none) → r.fault? = some f → answer = .error (.storage f)
  /-- Where all rows can be read, the first without an instant is told. -/
  undated : ∀ before (x : SessionText) after why, db.heldRows t = before ++ x.row :: after →
    (∀ r ∈ db.heldRows t, r.fault? = none) → (∀ b ∈ before, ∃ y, b.Tells (.ok y)) →
    Instant.ofStrictText x.createdAt = .error why →
    answer = .error (.storage (.badInstant x.id x.createdAt why))

theorem finds (hr : a.reads = true) (hs : db.has .sessions = true) :
    Finds db id (run a now db (.getSession id)).answer := by
  have htold {r : SessionRow} (h : db.sessionRow? id = some r) :
      (run a now db (.getSession id)).answer = r.told.map fun x => .foundSession (some x) := by
    rw [getSession_eq_told hr hs, h, Option.mapM_some]
    cases r.told <;> rfl
  constructor
  · constructor
    · intro habsent r hmem hid
      rw [htold (sessionRow?_eq_some.mpr ⟨hmem, hid⟩)] at habsent
      obtain ⟨x, -, hx⟩ := Except.map_eq_ok.mp habsent
      cases hx
    · intro hnone
      have hfind : db.sessionRow? id = none :=
        Option.eq_none_iff_forall_ne_some.mpr fun r hr =>
          hnone r (sessionRow?_eq_some.mp hr).1 (sessionRow?_eq_some.mp hr).2
      rw [getSession_eq_told hr hs, hfind]
      rfl
  · intro r hmem hid y hy
    rw [htold (sessionRow?_eq_some.mpr ⟨hmem, hid⟩), SessionRow.tells_iff.mp hy]

/-- A row of a target is of the kind of the target. -/
theorem kind_of_row_mem {x : SessionText} (h : x.row ∈ db.heldRows t) :
    x.targetKind = t.kind.tag := by
  have howner := (mem_heldRows.mp h).2
  exact Cell.ofString_injective (congrArg EntityRow.kind howner)

/-- A row of a target tells a session if it can be read and has an instant. -/
theorem exists_tells_iff {r : SessionRow} (hmem : r ∈ db.heldRows t) :
    (∃ y, r.Tells (.ok y)) ↔
      ∃ (x : SessionText) (i : Instant), r = x.row ∧ Instant.ofStrictText x.createdAt = .ok i := by
  constructor
  · rintro ⟨y, hy⟩
    cases hy with
    | session x hkind hdate => exact ⟨x, _, rfl, hdate⟩
  · rintro ⟨x, i, rfl, hdate⟩
    exact ⟨_, .session x (kind_of_row_mem hmem) hdate⟩

theorem not_tells_iff {r : SessionRow} (hmem : r ∈ db.heldRows t) :
    (¬∃ y, r.Tells (.ok y)) ↔ r.fault? ≠ none ∨
      ∃ (x : SessionText) (why : Refusal), r = x.row ∧
        Instant.ofStrictText x.createdAt = .error why := by
  rw [exists_tells_iff hmem]
  cases hfault : r.fault? with
  | some f =>
      refine iff_of_true ?_ (.inl (Option.some_ne_none f))
      rintro ⟨x, i, rfl, -⟩
      rw [SessionRow.fault?_eq_none.mpr ⟨x, rfl⟩] at hfault
      cases hfault
  | none =>
      obtain ⟨x, rfl⟩ := SessionRow.fault?_eq_none.mp hfault
      simp only [SessionText.row_inj, ne_eq, not_true_eq_false, false_or, exists_and_left,
        exists_eq_left']
      cases Instant.ofStrictText x.createdAt <;> simp

theorem lists (hr : a.reads = true) (hs : db.has .sessions = true) :
    Lists db t (run a now db (.listSessions t)).answer := by
  rw [listSessions_eq_toldAll hr hs]
  constructor
  · intro l
    rw [forall₂_tells_iff]
    cases toldAll (db.heldRows t) <;> simp [Except.map]
  · have hok : (∃ e, (toldAll (db.heldRows t)).map Answer.sessions = .error e) ↔
        ¬∃ l, toldAll (db.heldRows t) = .ok l := by
      cases toldAll (db.heldRows t) <;> simp [Except.map]
    rw [hok, exists_toldAll_eq_ok]
    simp only [not_forall, exists_prop]
    refine exists_congr fun r => and_congr_right fun hmem => ?_
    exact not_tells_iff hmem
  · intro before r after f hrows hbefore hfault
    rw [hrows, toldAll_of_fault hbefore hfault]
    rfl
  · intro before x after why hrows hread hbefore hdate
    have hmem : x.row ∈ db.heldRows t := hrows ▸ List.mem_append_right _ List.mem_cons_self
    rw [hrows, toldAll_of_error (hrows ▸ hread) hbefore (.undated x (kind_of_row_mem hmem) hdate)]
    rfl

/-- A call whose first statement lacks but one table runs on the file as it is, whatever
its store remembers. -/
theorem Caller.run_of_lacking {op : Operation} {n : TableName} {f : Fault}
    (hr : c.access.reads = true)
    (h : c.known.obstacle {} op.firstStatement = c.known.lacking n f) (db : Database) :
    c.run db op = FileStore.run c.access c.now db op :=
  run_of_rechecked hr (fun _ hx => Outline.rechecked_of_lacking (h ▸ hx)) db

/-- What is told of a session, and of the sessions of a target, is told alike by files that
have the same rows of it. -/
structure TellAlike (c c' : Caller) (db db' : Database) : Prop where
  session : ∀ id : SessionId,
    (∀ r : SessionRow, r.id = .ofString id.text → (r ∈ db.sessionRows ↔ r ∈ db'.sessionRows)) →
    (c.run db (.getSession id)).answer = (c'.run db' (.getSession id)).answer
  sessions : ∀ t : Target,
    (∀ r : SessionRow, r.owner = .ofTarget t → (r ∈ db.sessionRows ↔ r ∈ db'.sessionRows)) →
    (c.run db (.listSessions t)).answer = (c'.run db' (.listSessions t)).answer

theorem tellAlike {c' : Caller} {db' : Database} (hr : c.access.reads = true)
    (hs : db.has .sessions = true) (hr' : c'.access.reads = true)
    (hs' : db'.has .sessions = true) : TellAlike c c' db db' where
  session id h := by
    have hrow : db.sessionRow? id = db'.sessionRow? id := by
      refine Option.ext fun r => ?_
      rw [sessionRow?_eq_some, sessionRow?_eq_some]
      exact and_congr_left fun hid => h r hid
    rw [Caller.run_of_lacking hr rfl, Caller.run_of_lacking hr' rfl, getSession_eq_told hr hs,
      getSession_eq_told hr' hs', hrow]
  sessions t h := by
    have hrows : db.heldRows t = db'.heldRows t := by
      have hkept : (db.sessions.getD ∅).keep (fun s => s.owner == .ofTarget t) =
          (db'.sessions.getD ∅).keep (fun s => s.owner == .ofTarget t) := by
        refine Table.ext_of_mem fun r => ?_
        rw [Table.mem_rows_keep, Table.mem_rows_keep]
        exact and_congr_left fun howner => h r (beq_iff_eq.mp howner)
      exact congrArg Table.rows hkept
    rw [Caller.run_of_lacking hr rfl, Caller.run_of_lacking hr' rfl, listSessions_eq_toldAll hr hs,
      listSessions_eq_toldAll hr' hs', hrows]

end FileStore

open FileStore

/-- Corrupt sessions are contained. Whatever stands for the names and the instants of
sessions, all who do not ask for sessions are told the same and leave files that again
differ only there. Whoever asks for a session is told what its own row tells, and whoever
asks for the sessions of a target what the rows of that target tell. -/
theorem corruption_contained :
    (∀ (s s' : Sharing) (cs : List Call), s.blanked = s'.blanked →
      (∀ c ∈ cs, c.operation.asksForSessions = false) →
      (s.calls cs).1 = (s'.calls cs).1 ∧ (s.calls cs).2.blanked = (s'.calls cs).2.blanked) ∧
    (∀ r : SessionRow, ∃! y, r.Tells y) ∧
    ∀ (c : Caller) (db : Database), c.access.reads = true → db.has .sessions = true →
      (∀ id, Finds db id (c.run db (.getSession id)).answer) ∧
      (∀ t, Lists db t (c.run db (.listSessions t)).answer) ∧
      ∀ (c' : Caller) (db' : Database), c'.access.reads = true → db'.has .sessions = true →
        TellAlike c c' db db' := by
  refine ⟨fun s s' cs h hcs => Sharing.calls_blanked h hcs, fun r => ?_, fun c db hr hs => ?_⟩
  · exact ⟨r.told, r.tells_told, fun y hy => (SessionRow.tells_iff.mp hy).symm⟩
  · refine ⟨fun id => ?_, fun t => ?_, fun c' db' hr' hs' => tellAlike hr hs hr' hs'⟩
    · rw [Caller.run_of_lacking hr rfl]
      exact finds hr hs
    · rw [Caller.run_of_lacking hr rfl]
      exact lists hr hs

/-- A session of a bot that was made at an instant that is no text. -/
def SessionRow.garbled : SessionRow :=
  ⟨.ofString "s", .ofString "a", .ofString "bot", none, .text [0xff]⟩

theorem corruption_contained_garbled :
    (FileStore.Caller.run (.unsupported [] [.garbled]) ⟨Database.empty.outline, .free, .epoch⟩
      (.getSession ⟨"s"⟩)).answer = .error (.storage (.badText 4 ⟨0, some 1⟩)) ∧
    (Sharing.calls ⟨.unsupported [] [.garbled], fun _ => Database.empty.outline⟩
      [⟨0, .free, .epoch, .deleteSession ⟨"s"⟩⟩]).1 =
    (Sharing.calls ⟨.unsupported [] [SessionRow.garbled.blank], fun _ => Database.empty.outline⟩
      [⟨0, .free, .epoch, .deleteSession ⟨"s"⟩⟩]).1 := by
  obtain ⟨happly, -, hreads⟩ := corruption_contained
  obtain ⟨hfinds, -, -⟩ := hreads ⟨Database.empty.outline, .free, .epoch⟩
    (.unsupported [] [.garbled]) rfl rfl
  refine ⟨?_, ?_⟩
  · exact (hfinds ⟨"s"⟩).told .garbled (List.mem_singleton.mpr rfl) rfl _ (.unreadable rfl)
  · refine (happly _ _ _ rfl fun c hc => ?_).1
    obtain rfl := List.mem_singleton.mp hc
    rfl

/-- What is no text is no instant, and yet the error does not name the session. Nor is a
session told to be absent where its table is, or where a lock is in the way. -/
theorem getSession_garbled :
    (SessionRow.garbled.targetKind = .ofString Kind.bot.tag ∧
      (∀ date i, Instant.ofStrictText date = .ok i →
        SessionRow.garbled.createdAt ≠ .ofString date) ∧
      ∀ date why, (FileStore.run .free .epoch (.unsupported [] [.garbled])
        (.getSession ⟨"s"⟩)).answer ≠ .error (.storage (.badInstant "s" date why))) ∧
    (FileStore.run .free .epoch .empty (.getSession ⟨"s"⟩)).answer =
      .error (.storage (.noTable "test_sessions")) ∧
    (FileStore.run (.under false (some .exclusive)) .epoch (.unsupported [] [])
      (.getSession ⟨"s"⟩)).answer = .error .busy := by
  refine ⟨⟨rfl, fun date i _ hdate => ?_, fun date why h => ?_⟩, rfl, rfl⟩
  · have hread := Cell.read_ofString date 4 "created_at"
    rw [← hdate] at hread
    cases hread
  · cases h

end OwnershipRegistry
