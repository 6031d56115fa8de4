import OwnershipRegistry.Proofs.File.Removal
import OwnershipRegistry.Proofs.Time.Lenient
import OwnershipRegistry.Proofs.Wire.RoundTrip

/-!
Sessions, written and read back. An instant is written in one form and read in a larger
one, and every instant is read as itself, in whatever year and with whatever fraction;
so a session is read back whenever and however it was made. A session without a name
is read from a record that says so and from one that leaves it out.
-/

namespace OwnershipRegistry

open Json (Doc)
open Wire

theorem Instant.ofDoc_zuluText (i : Instant) : ofDoc (.ofString i.zuluText) = .ok i := by
  have hread : readString "an RFC 3339 formatted date and time string" (.ofString i.zuluText) =
      .ok i.zuluText := rfl
  rw [ofDoc, hread, Except.ok_bind, ofLenientText_zuluText]
  rfl

namespace Session

theorem plain_name (name : Option String) : ((name.map Doc.ofString).getD .null).Plain := by
  cases name with
  | none => exact .null
  | some name => exact .string name

theorem plain_toDoc (s : Session) : s.toDoc.Plain := by
  refine .record _ ?_
  simp only [List.forall_mem_cons]
  exact ⟨.string _, s.target.plain_toDoc, plain_name s.name, .string _, nofun⟩

theorem readName (name : Option String) :
    readOptionalString "a string" ((name.map Doc.ofString).getD .null) = .ok name := by
  cases name <;> rfl

theorem ofDoc_toDoc (source : Source) (s : Session) : ofDoc source s.toDoc = .ok s := by
  have hread : (shape source).read source {} s.toDoc =
      .ok ⟨some s.id, some s.target, some s.name, some s.createdAt⟩ := by
    refine Shape.read_record ?_
    refine (Shape.readMembers_cons rfl rfl (slot_set s.id.ofDoc_toDoc _)).trans ?_
    refine (Shape.readMembers_cons rfl rfl (slot_set (Target.ofDoc_toDoc _ _) _)).trans ?_
    refine (Shape.readMembers_cons rfl rfl (slot_set (readName s.name) _)).trans ?_
    exact (Shape.readMembers_cons rfl rfl (slot_set s.createdAt.ofDoc_zuluText _)).trans rfl
  rw [ofDoc, hread]
  rfl

/-- The record of a session without a name that leaves the field out. -/
def unnamedDoc (id : SessionId) (t : Target) (createdAt : Instant) : Doc :=
  .record [("id", id.toDoc), ("target", t.toDoc), ("created_at", .ofString createdAt.zuluText)]

theorem plain_unnamedDoc (id : SessionId) (t : Target) (i : Instant) :
    (unnamedDoc id t i).Plain := by
  refine .record _ ?_
  simp only [List.forall_mem_cons]
  exact ⟨.string _, t.plain_toDoc, .string _, nofun⟩

theorem ofDoc_unnamedDoc (source : Source) (id : SessionId) (t : Target) (i : Instant) :
    ofDoc source (unnamedDoc id t i) = .ok ⟨id, t, none, i⟩ := by
  have hread : (shape source).read source {} (unnamedDoc id t i) =
      .ok ⟨some id, some t, none, some i⟩ := by
    refine Shape.read_record ?_
    refine (Shape.readMembers_cons rfl rfl (slot_set id.ofDoc_toDoc _)).trans ?_
    refine (Shape.readMembers_cons rfl rfl (slot_set (Target.ofDoc_toDoc _ _) _)).trans ?_
    exact (Shape.readMembers_cons rfl rfl (slot_set i.ofDoc_zuluText _)).trans rfl
  rw [ofDoc, hread]
  rfl

end Session

/-- The sessions that are told in an answer. -/
def Answer.told : Answer → List Session
  | session s | foundSession (some s) => [s]
  | sessions ss => ss
  | _ => []

/-- Every session is read back from the text of its record, whatever its instant; so are
those that a store reads in the file, under whatever offset their instants stand there.
Without a name the field may be null or left out. -/
theorem sessions_read_back :
    (∀ s : Session, ofText (Session.ofDoc (.text keptDepth)) s.toDoc.text = .ok s) ∧
    (∀ (c : FileStore.Caller) (db : Database) (op : Operation) (x : Answer),
      (c.run db op).answer = .ok x → ∀ s ∈ x.told,
        ofText (Session.ofDoc (.text keptDepth)) s.toDoc.text = .ok s) ∧
    ∀ (id : SessionId) (t : Target) (i : Instant),
      (⟨id, t, none, i⟩ : Session).toDoc = .record [("id", id.toDoc), ("target", t.toDoc),
        ("name", .null), ("created_at", .ofString i.zuluText)] ∧
      ofText (Session.ofDoc (.text keptDepth)) (Session.unnamedDoc id t i).text =
        .ok ⟨id, t, none, i⟩ := by
  have hsession (s : Session) : ofText (Session.ofDoc (.text keptDepth)) s.toDoc.text = .ok s :=
    ofText_text s.plain_toDoc (s.ofDoc_toDoc _)
  exact ⟨hsession, fun _ _ _ _ _ s _ => hsession s, fun id t i =>
    ⟨rfl, ofText_text (Session.plain_unnamedDoc id t i) (Session.ofDoc_unnamedDoc _ id t i)⟩⟩

/-- A minute after midnight on the last day before year 0. -/
def Instant.beforeYearZero : Instant := (ofParts? (-719529) 60 0).get rfl

/-- A session that was made in year 0 by a clock ahead of universal time. -/
def SessionRow.ahead : SessionRow :=
  ⟨.ofString "s", .ofString "a", .ofString "bot", none, .ofString "0000-01-01T00:00:00+23:59"⟩

/-- The instant falls into the year before, which is written with a sign, and is read
back from it. -/
theorem sessions_read_back_beforeYearZero :
    (FileStore.Caller.run { sessions := some (.ofList [.ahead]) }
      ⟨Database.empty.outline, .free, .epoch⟩ (.getSession ⟨"s"⟩)).answer =
        .ok (.foundSession (some ⟨⟨"s"⟩, ⟨.bot, "a"⟩, none, .beforeYearZero⟩)) ∧
    Instant.beforeYearZero.zuluText = "-0001-12-31T00:01:00Z" ∧
    ofText (Session.ofDoc (.text keptDepth))
      (⟨⟨"s"⟩, ⟨.bot, "a"⟩, none, .beforeYearZero⟩ : Session).toDoc.text =
        .ok ⟨⟨"s"⟩, ⟨.bot, "a"⟩, none, .beforeYearZero⟩ := by
  have hanswer : (FileStore.Caller.run { sessions := some (.ofList [.ahead]) }
      ⟨Database.empty.outline, .free, .epoch⟩ (.getSession ⟨"s"⟩)).answer =
        .ok (.foundSession (some ⟨⟨"s"⟩, ⟨.bot, "a"⟩, none, .beforeYearZero⟩)) := by
    rfl
  refine ⟨hanswer, by rfl, ?_⟩
  exact sessions_read_back.2.1 _ _ _ _ hanswer _ List.mem_cons_self

end OwnershipRegistry
