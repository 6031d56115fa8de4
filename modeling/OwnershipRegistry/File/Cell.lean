import OwnershipRegistry.Fault
import OwnershipRegistry.Target

/-!
Cells. A cell of the file holds a text, whose octets need not be well-formed, or
untyped octets. Texts are taken to be kept in UTF-8, as a file keeps them that was
not set to another encoding before its first table. Texts come before untyped
octets, and cells of one sort are ordered by their octets; a text never equals
untyped octets.
-/

namespace OwnershipRegistry

/-- What a filled column of a row holds. -/
inductive Cell
  | text (octets : List UInt8)
  | blob (octets : List UInt8)
  deriving DecidableEq, Repr, Inhabited

namespace Cell

def ofString (s : String) : Cell := text (OwnershipRegistry.octets s)

theorem ofString_injective {s t : String} (h : ofString s = ofString t) : s = t :=
  octets_injective (text.inj h)

/-- Texts before untyped octets. -/
def rank : Cell → Nat
  | text _ => 0
  | blob _ => 1

/-- The octets of either sort of cell. -/
def content : Cell → List UInt8
  | text os => os
  | blob os => os

instance : Ord Cell := ⟨compareLex (compareOn rank) (compareOn content)⟩

instance : Std.TransOrd Cell :=
  inferInstanceAs (Std.TransCmp (compareLex (compareOn rank) (compareOn content)))

instance : Std.LawfulEqOrd Cell where
  eq_of_compare {a b} h := by
    obtain ⟨hr, hc⟩ := compareLex_eq_eq.1 h
    have hr : a.rank = b.rank := Std.LawfulEqOrd.eq_of_compare hr
    have hc : a.content = b.content := Std.LawfulEqOrd.eq_of_compare hc
    cases a <;> cases b <;> simp_all [rank, content]

/-- Reads a cell as a text, as the given column of what is read. -/
def read (c : Cell) (index : Nat) (column : String) : Except Fault String :=
  match c with
  | blob _ => .error (.notText index column)
  | text os =>
    match Utf8.decode os with
    | .ok s => .ok s
    | .error f => .error (.badText index f)

@[simp] theorem read_ofString (s : String) (index : Nat) (column : String) :
    (ofString s).read index column = .ok s := by
  simp [read, ofString]

theorem eq_ofString_of_read {c : Cell} {index : Nat} {column s : String}
    (h : c.read index column = .ok s) : c = ofString s := by
  cases c with
  | blob os => cases h
  | text os =>
      rw [read] at h
      split at h
      · rename_i hdecode
        rw [← Except.ok.inj h, ofString, Utf8.octets_of_decode hdecode]
      · cases h

end Cell

end OwnershipRegistry
