import OwnershipRegistry.Text.Utf8

/-!
Targets: what a registered entity stands for. A target names one backing record
by its kind and its identifier, so a bot and a user may share an identifier.
Bots come before users, and targets of one kind are ordered by the octets of
their identifiers.
-/

namespace OwnershipRegistry

inductive Kind
  | bot
  | user
  deriving DecidableEq, Repr, Inhabited

namespace Kind

def all : List Kind := [.bot, .user]

def tag : Kind → String
  | .bot => "bot"
  | .user => "user"

/-- The kind with the given written form; letter case matters. -/
def ofTag? : String → Option Kind
  | "bot" => some .bot
  | "user" => some .user
  | _ => none

def rank : Kind → Nat
  | .bot => 0
  | .user => 1

theorem rank_injective {a b : Kind} (h : a.rank = b.rank) : a = b := by
  cases a <;> cases b <;> simp_all [rank]

@[simp] theorem ofTag?_tag (k : Kind) : ofTag? k.tag = some k := by
  cases k <;> rfl

instance : Ord Kind := ⟨compareOn rank⟩

instance : Std.TransOrd Kind := inferInstanceAs (Std.TransCmp (compareOn rank))

instance : Std.LawfulEqOrd Kind where
  eq_of_compare h := rank_injective (Std.LawfulEqOrd.eq_of_compare h)

end Kind

/-- A reference to a backing record. -/
structure Target where
  kind : Kind
  id : String
  deriving DecidableEq, Repr, Inhabited

namespace Target

/-- The target of a written kind and an identifier. -/
def ofTag? (id tag : String) : Option Target :=
  (Kind.ofTag? tag).map (⟨·, id⟩)

/-- The kind and the identifier with a colon between them. -/
def text (t : Target) : String := t.kind.tag ++ ":" ++ t.id

instance : Ord Target := ⟨compareLex (compareOn kind) (compareOn (octets ·.id))⟩

instance : Std.TransOrd Target :=
  inferInstanceAs (Std.TransCmp (compareLex (compareOn kind) (compareOn (octets ·.id))))

instance : Std.LawfulEqOrd Target where
  eq_of_compare {a b} h := by
    obtain ⟨hk, hi⟩ := compareLex_eq_eq.1 h
    have hk : a.kind = b.kind := Std.LawfulEqOrd.eq_of_compare hk
    have hi := octets_injective (Std.LawfulEqOrd.eq_of_compare hi)
    cases a; cases b; simp_all

def sort (ts : List Target) : List Target := ts.mergeSort fun a b => (compare a b).isLE

end Target

end OwnershipRegistry
