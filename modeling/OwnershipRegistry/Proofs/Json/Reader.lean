import Mathlib.Data.List.Forall2
import OwnershipRegistry.Proofs.Json.Texts

/-!
Values of JSON, read back. A value is plain if it is whole, its strings can be read,
its numbers are natural and its keys are strings. The reader takes the text of a plain
value off the front of a text and leaves the rest, as long as nothing follows that
could go on with a numeral; the fuel that it is given always lasts.
-/

namespace OwnershipRegistry.Json.Doc

/-- Values that are read from their texts as they are. -/
inductive Plain : Doc → Prop
  | null : Plain null
  | bool (b : Bool) : Plain (bool b)
  | natural (n : Nat) : Plain (number (.ofNat n))
  | string (s : String) : Plain (ofString s)
  | array (items : List Doc) (parts : ∀ d ∈ items, Plain d) : Plain (ofList items)
  | record (members : List (String × Doc)) (parts : ∀ m ∈ members, Plain m.2) :
    Plain (record members)

/-- The members of an object, as they stand in it. -/
def members (ms : List (String × Doc)) : List (Doc × Doc) := ms.map fun m => (ofString m.1, m.2)

theorem Plain.isWhole {d : Doc} (h : Plain d) : d.isWhole = true := by
  induction h with
  | null | bool | natural | string => rfl
  | array items _ ih => simpa [ofList, Doc.isWhole, areWhole_eq_true] using ih
  | record ms _ ih =>
    simp only [Doc.record, Doc.isWhole, Bool.true_and, membersAreWhole_eq_true]
    intro m hm
    obtain ⟨m, hmem, rfl⟩ := List.mem_map.mp hm
    exact ⟨rfl, ih m hmem⟩

/-! ### Parts -/

theorem not_isSpace_of_isDigit {c : Char} (h : c.isDigit = true) : isSpace c = false := by
  rw [← Bool.not_eq_true]
  intro hspace
  simp only [isSpace, Bool.or_eq_true, beq_iff_eq] at hspace
  rcases hspace with ((rfl | rfl) | rfl) | rfl <;> cases h

/-- The text of a natural number begins with a digit. -/
theorem text_ofNat (n : Nat) :
    ∃ c cs, (Numeral.ofNat n).text = c :: cs ∧ c.isDigit = true := by
  obtain ⟨c, cs, hcs⟩ := List.exists_cons_of_ne_nil (digits_ne_nil n)
  refine ⟨c, cs, ?_, isDigit_of_mem_digits n c (hcs ▸ List.mem_cons_self)⟩
  simp [Numeral.text, Numeral.ofNat, hcs]

theorem reads_natural (n : Nat) : Reads (Numeral.ofNat n).text (number (.ofNat n)) := by
  obtain ⟨c, cs, htext, hdigit⟩ := text_ofNat n
  have hread (rest : List Char) (h : Halts rest) := Numeral.read_ofNat n h
  rw [htext] at hread ⊢
  refine reads_number (readWith_number (not_isSpace_of_isDigit hdigit) fun hc => ?_) hread
  -- no other value begins with a digit
  simp only [List.mem_cons, List.not_mem_nil, or_false] at hc
  rcases hc with rfl | rfl | rfl | rfl | rfl | rfl <;> cases hdigit

theorem reads_quote (s : String) : Reads (quote s) (ofString s) := by
  have hread (rest : List Char) :
      Json.readString (s.toList.flatMap escapedChar ++ ['"'] ++ rest) = some (some s, rest) := by
    rw [List.append_assoc]
    exact readString_quote s rest
  exact reads_string hread

theorem readsItems_render {items : List Doc} (hne : items ≠ [])
    (h : ∀ d ∈ items, Reads d.render d ∧ d.isWhole = true) :
    ReadsItems (renderItems items ++ [']']) items := by
  have hblank : Blank [] := nofun
  induction items with
  | nil => contradiction
  | cons d ds ih =>
    obtain ⟨⟨hreads, hwhole⟩, hds⟩ := List.forall_mem_cons.mp h
    cases ds with
    | nil => exact ReadsItems.last hreads hwhole hblank
    | cons e es =>
      rw [renderItems, List.append_assoc]
      exact ReadsItems.next hreads hwhole hblank (ih (List.cons_ne_nil _ _) hds)

/-- The texts of the keys and the values of members. -/
def partsOf (ms : List (String × Doc)) : List (String × String) :=
  ms.map fun m => (.ofList (quote m.1), m.2.text)

theorem joinMembers_partsOf (ms : List (String × Doc)) :
    joinMembers (partsOf ms) = renderMembers (members ms) := by
  induction ms with
  | nil => rfl
  | cons m ms ih =>
    have hkey : (String.ofList (quote m.1)).toList = quote m.1 := String.toList_ofList
    have hvalue : m.2.text.toList = m.2.render := String.toList_ofList
    cases ms with
    | nil =>
      change (String.ofList (quote m.1)).toList ++ ':' :: m.2.text.toList =
        quote m.1 ++ ':' :: m.2.render
      rw [hkey, hvalue]
    | cons m' ms =>
      change (String.ofList (quote m.1)).toList ++ ':' :: (m.2.text.toList ++ ',' ::
        joinMembers (partsOf (m' :: ms))) =
        quote m.1 ++ ':' :: m.2.render ++ ',' :: renderMembers (members (m' :: ms))
      rw [hkey, hvalue, ih, List.append_assoc, List.cons_append]

/-- A value is spelled by the text that is written for it, if it is read off that. -/
theorem spells_text {d : Doc} (h : Reads d.render d) : Spells d.text d := by
  have hblank : Blank [] := nofun
  refine spells_of_reads h hblank ?_
  rw [Doc.text, String.toList_ofList, List.append_nil]

theorem spellsMember_partsOf {ms : List (String × Doc)}
    (h : ∀ m ∈ ms, Reads m.2.render m.2 ∧ m.2.isWhole = true) :
    List.Forall₂ SpellsMember (partsOf ms) (members ms) := by
  rw [partsOf, members, List.forall₂_map_left_iff, List.forall₂_map_right_iff, List.forall₂_same]
  intro m hm
  obtain ⟨hreads, hwhole⟩ := h m hm
  exact ⟨⟨spells_text (d := ofString m.1) (reads_quote m.1), rfl⟩, spells_text hreads, hwhole⟩

theorem text_objectText (ms : List (String × Doc)) :
    (objectText (partsOf ms)).toList = (Doc.record ms).render := by
  rw [objectText, String.toList_ofList, joinMembers_partsOf]
  rfl

/-- The reader takes the text of a plain value off the front of a text. -/
theorem Plain.reads {d : Doc} (h : Plain d) : Reads d.render d := by
  have hblank : Blank [] := nofun
  induction h with
  | null => exact reads_word "ull" fun _ _ => rfl
  | bool b =>
    cases b with
    | false => exact reads_word "alse" fun _ _ => rfl
    | true => exact reads_word "rue" fun _ _ => rfl
  | natural n => exact reads_natural n
  | string s => exact reads_quote s
  | array items parts ih =>
    cases items with
    | nil => exact reads_emptyArray hblank
    | cons d ds =>
      exact (readsItems_render (List.cons_ne_nil _ _) fun e he =>
        ⟨ih e he, (parts e he).isWhole⟩).reads
  | record ms parts ih =>
    rw [← text_objectText]
    exact reads_objectText (spellsMember_partsOf fun m hm => ⟨ih m hm, (parts m hm).isWhole⟩)

/-- What is written for a plain value is a text of it. -/
theorem Plain.spells {d : Doc} (h : Plain d) : Spells d.text d := spells_text h.reads

/-- The text of a plain value is read as that value, to its end. -/
theorem Plain.read_render {d : Doc} (h : Plain d) : read d.render = (d, []) := by
  have hread := h.reads (2 * d.render.length + 2) [] (by omega) nofun
  rwa [List.append_nil] at hread

end OwnershipRegistry.Json.Doc
