import OwnershipRegistry.Session
import OwnershipRegistry.Time.Lenient
import OwnershipRegistry.Time.Printer
import OwnershipRegistry.Wire.Target

/-!
The written forms of entities and sessions. A session without a name may leave
the field out; its instant is read leniently and written with `Z`.
-/

namespace OwnershipRegistry

open Json (Doc)
open Wire

def entityToDoc (t : Target) : Doc := .record [("target", t.toDoc)]

def entityShape (source : Source) : Shape (Option Target) where
  expected := "struct KnownEntity"
  expectedItems := "struct KnownEntity with 1 element"
  slots := [slot "target" id (fun t _ => some t) (Target.ofDoc source.inner)]

def entityOfDoc (source : Source) (d : Doc) : Except Failure Target := do
  required "target" (← (entityShape source).read source none d)

namespace SessionId

def toDoc (s : SessionId) : Doc := .ofString s.text

def ofDoc (d : Doc) : Except Failure SessionId := (readString "a string" d).map mk

end SessionId

def Instant.ofDoc (d : Doc) : Except Failure Instant := do
  let s ← readString "an RFC 3339 formatted date and time string" d
  match Instant.ofLenientText s with
  | .ok i => return i
  | .error reason => refuse (.notInstant reason)

namespace Session

structure Draft where
  id : Option SessionId := none
  target : Option Target := none
  name : Option (Option String) := none
  createdAt : Option Instant := none

def shape (source : Source) : Shape Draft where
  expected := "struct TestSession"
  expectedItems := "struct TestSession with 4 elements"
  slots := [
    slot "id" Draft.id (fun x s => { s with id := some x }) SessionId.ofDoc,
    slot "target" Draft.target (fun x s => { s with target := some x })
      (Target.ofDoc source.inner),
    slot "name" Draft.name (fun x s => { s with name := some x })
      (readOptionalString "a string"),
    slot "created_at" Draft.createdAt (fun x s => { s with createdAt := some x })
      Instant.ofDoc]

def ofDoc (source : Source) (d : Doc) : Except Failure Session := do
  let s ← (shape source).read source {} d
  return ⟨← required "id" s.id, ← required "target" s.target, s.name.join,
    ← required "created_at" s.createdAt⟩

def toDoc (s : Session) : Doc :=
  .record [("id", s.id.toDoc), ("target", s.target.toDoc),
    ("name", (s.name.map Doc.ofString).getD .null), ("created_at", .ofString s.createdAt.zuluText)]

end Session

end OwnershipRegistry
