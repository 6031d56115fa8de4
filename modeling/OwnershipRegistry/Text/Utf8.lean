/-!
The UTF-8 octets of a text, and reading octets as UTF-8. Every order on identifiers
in this library is the lexicographic order of their octets, and an identifier is
recovered from them. Well-formed octets are read as the text they encode; otherwise
the fault says where the first ill-formed sequence begins and, unless the octets
merely end too early, how many octets it spans.
-/

namespace OwnershipRegistry

/-- The UTF-8 encoding of a text, octet by octet. -/
def octets (s : String) : List UInt8 := s.toByteArray.data.toList

theorem octets_injective {s t : String} (h : octets s = octets t) : s = t := by
  apply String.toByteArray_inj.1
  exact ByteArray.ext (Array.toList_inj.1 h)

@[simp] theorem octets_inj {s t : String} : octets s = octets t ↔ s = t :=
  ⟨octets_injective, fun h => h ▸ rfl⟩

def sortTexts (ss : List String) : List String :=
  ss.mergeSort fun a b => (compare (octets a) (octets b)).isLE

namespace Utf8

structure Fault where
  /-- The number of well-formed octets before the fault. -/
  start : Nat
  /-- The number of octets that cannot continue, or none if the octets end
  within a sequence. -/
  span : Option Nat
  deriving DecidableEq, Repr, Inhabited

def Fault.message (f : Fault) : String :=
  match f.span with
  | some n =>
    "invalid utf-8 sequence of " ++ toString n ++ " bytes from index " ++ toString f.start
  | none => "incomplete utf-8 byte sequence from index " ++ toString f.start

/-- Whether an octet continues a sequence. -/
def isTail (o : UInt8) : Bool := 0x80 ≤ o && o ≤ 0xbf

/-- The second octets allowed after a first octet, and the length of the
sequence it opens. -/
def lead (o : UInt8) : Option (Nat × (UInt8 → Bool)) :=
  if o < 0x80 then some (1, fun _ => true)
  else if 0xc2 ≤ o && o ≤ 0xdf then some (2, isTail)
  else if o == 0xe0 then some (3, fun p => 0xa0 ≤ p && p ≤ 0xbf)
  else if o == 0xed then some (3, fun p => 0x80 ≤ p && p ≤ 0x9f)
  else if 0xe1 ≤ o && o ≤ 0xef then some (3, isTail)
  else if o == 0xf0 then some (4, fun p => 0x90 ≤ p && p ≤ 0xbf)
  else if o == 0xf4 then some (4, fun p => 0x80 ≤ p && p ≤ 0x8f)
  else if 0xf1 ≤ o && o ≤ 0xf3 then some (4, isTail)
  else none

/-- How the sequence at the front of some octets goes on: it has the given
length, or it is cut off by the end, or its first octets cannot continue. -/
inductive Front
  | whole (length : Nat)
  | cut
  | spoilt (span : Nat)
  deriving DecidableEq, Repr

/-- Reads the octets that follow the second one of a sequence. -/
def tailFront (length seen : Nat) : List UInt8 → Front
  | [] => if seen < length then .cut else .whole length
  | o :: rest =>
    if length ≤ seen then .whole length
    else if isTail o then tailFront length (seen + 1) rest
    else .spoilt seen

/-- Reads the sequence that a first octet opens. -/
def front (o : UInt8) (rest : List UInt8) : Front :=
  match lead o with
  | none => .spoilt 1
  | some (length, second) =>
    if length ≤ 1 then .whole 1
    else match rest with
      | [] => .cut
      | p :: rest => if second p then tailFront length 2 rest else .spoilt 1

/-- The first fault in some octets, of which the first `skip` belong to a
sequence that has been read, at the given position. -/
def faultFrom (position skip : Nat) : List UInt8 → Option Fault
  | [] => none
  | o :: rest =>
    match skip with
    | skip + 1 => faultFrom (position + 1) skip rest
    | 0 =>
      match front o rest with
      | .whole length => faultFrom (position + 1) (length - 1) rest
      | .cut => some ⟨position, none⟩
      | .spoilt span => some ⟨position, some span⟩

def decode (os : List UInt8) : Except Fault String :=
  match String.fromUTF8? ⟨os.toArray⟩ with
  | some s => .ok s
  | none => .error ((faultFrom 0 0 os).getD ⟨0, none⟩)

/-- Octets with every ill-formed sequence replaced, of which the first `kept`
belong to a sequence that has been read, or else the first `lost` to one that is
being replaced. -/
def mendFrom (kept lost : Nat) : List UInt8 → List UInt8
  | [] => []
  | o :: rest =>
    match kept, lost with
    | kept + 1, lost => o :: mendFrom kept lost rest
    | 0, lost + 1 => mendFrom 0 lost rest
    | 0, 0 =>
      match front o rest with
      | .whole length => o :: mendFrom (length - 1) 0 rest
      | .cut => replacement
      | .spoilt span => replacement ++ mendFrom 0 (span - 1) rest
where
  replacement : List UInt8 := octets "\ufffd"

/-- The text that octets encode, with a replacement character for every sequence
that is ill-formed. -/
def mend (os : List UInt8) : String :=
  match decode os with
  | .ok s => s
  | .error _ => (decode (mendFrom 0 0 os)).toOption.getD ""

@[simp] theorem decode_octets (s : String) : decode (octets s) = .ok s := by
  have h : (⟨(octets s).toArray⟩ : ByteArray) = s.toByteArray := by
    simp [octets]
  have hs : String.fromUTF8? s.toByteArray = some s := by
    rw [String.fromUTF8?, dif_pos s.isValidUTF8]
    rfl
  rw [decode, h, hs]

/-- A text that is read has the octets that it was read from. -/
theorem octets_of_decode {os : List UInt8} {s : String} (h : decode os = .ok s) :
    octets s = os := by
  rw [decode] at h
  split at h
  · rename_i read hread
    obtain rfl := Except.ok.inj h
    rw [String.fromUTF8?] at hread
    split at hread
    · rw [← Option.some.inj hread]
      rfl
    · cases hread
  · cases h

end Utf8

end OwnershipRegistry
