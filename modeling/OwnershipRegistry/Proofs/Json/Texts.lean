import OwnershipRegistry.Proofs.Json.Prefix

/-!
Texts of values and of objects. A text of an object is the texts of its members, joined,
with blanks around it; so members can be put in another order, left out and added in the
text as in the value.
-/

namespace OwnershipRegistry.Json

/-! ### Texts of objects -/

open Doc

/-- A text of a value, with nothing but blanks around it. -/
def Spells (s : String) (d : Doc) : Prop :=
  ∃ rest, Doc.read s.toList = (d, rest) ∧ skipSpace rest = []

/-- Texts of the key and of the value of a member. -/
def SpellsMember (part : String × String) (m : Doc × Doc) : Prop :=
  (Spells part.1 m.1 ∧ m.1.isKey = true) ∧ Spells part.2 m.2 ∧ m.2.isWhole = true

/-- The texts of members, joined by commas. -/
def joinMembers : List (String × String) → List Char
  | [] => []
  | [part] => part.1.toList ++ ':' :: part.2.toList
  | part :: part' :: parts =>
    part.1.toList ++ ':' :: (part.2.toList ++ ',' :: joinMembers (part' :: parts))

/-- The text of an object whose members have these texts. -/
def objectText (parts : List (String × String)) : String :=
  .ofList ('\x7b' :: (joinMembers parts ++ ['\x7d']))

variable {s : String} {d : Doc} {pre space : List Char} {parts : List (String × String)}
  {ms : List (Doc × Doc)}

/-- Blanks may follow what the reader takes. -/
theorem Spells.exists_reads (h : Spells s d) (hwhole : d.isWhole = true) :
    ∃ pre space, s.toList = pre ++ space ∧ Reads pre d ∧ Blank space := by
  obtain ⟨space, hread, hspace⟩ := h
  obtain ⟨pre, hs, hreads⟩ := (cuts _).1 hread hwhole
  exact ⟨pre, space, hs, hreads, List.dropWhile_eq_nil_iff.mp hspace⟩

theorem spells_of_reads (h : Reads pre d) (hspace : Blank space) (hs : s.toList = pre ++ space) :
    Spells s d := by
  have hhalts : Halts space := by
    cases space with
    | nil => exact nofun
    | cons c space => exact halts_of_isSpace (hspace c List.mem_cons_self) space
  refine ⟨space, ?_, List.dropWhile_eq_nil_iff.mpr hspace⟩
  rw [Doc.read, hs]
  exact h _ _ (by rw [List.length_append]; omega) hhalts

/-- The joined texts of members are read as the members. -/
theorem readsMembers_join (hparts : List.Forall₂ SpellsMember parts ms) (hne : parts ≠ []) :
    ReadsMembers (joinMembers parts ++ ['\x7d']) ms := by
  induction hparts with
  | nil => contradiction
  | @cons part m parts ms hpart hparts ih =>
    obtain ⟨⟨hkey, hiskey⟩, hvalue, hwhole⟩ := hpart
    obtain ⟨kpre, space, hk, hkreads, hspace⟩ := hkey.exists_reads (isWhole_of_isKey hiskey)
    obtain ⟨pre, space', hv, hreads, hspace'⟩ := hvalue.exists_reads hwhole
    cases hparts with
    | nil =>
      have hjoin : joinMembers [part] ++ ['\x7d'] =
          kpre ++ (space ++ ':' :: (pre ++ (space' ++ ['\x7d']))) := by
        simp [joinMembers, hk, hv]
      rw [hjoin]
      exact ReadsMembers.last hkreads hiskey hspace hreads hspace'
    | @cons part' m' parts ms hpart' hparts =>
      have hjoin : joinMembers (part :: part' :: parts) ++ ['\x7d'] =
          kpre ++ (space ++ ':' :: (pre ++ (space' ++ ',' ::
            (joinMembers (part' :: parts) ++ ['\x7d'])))) := by
        simp [joinMembers, hk, hv]
      rw [hjoin]
      exact ReadsMembers.next hkreads hiskey hspace hreads hspace' (ih (List.cons_ne_nil _ _))

theorem reads_objectText (hparts : List.Forall₂ SpellsMember parts ms) :
    Reads (objectText parts).toList (.object ms true) := by
  rw [objectText, String.toList_ofList]
  cases hparts with
  | nil =>
    have hblank : Blank [] := nofun
    exact reads_emptyObject hblank
  | cons hpart hparts => exact (readsMembers_join (.cons hpart hparts) (List.cons_ne_nil _ _)).reads

/-! ### Objects, taken apart -/

theorem Doc.readMembers_ne_nil {fuel : Nat} {cs rest : List Char}
    (h : readMembers fuel cs = (ms, true, rest)) : ms ≠ [] := by
  cases fuel with
  | zero => cases h
  | succ fuel =>
    obtain ⟨key, d, _, _, _, -, -, -, -, ⟨-, rfl⟩ | ⟨ms, mid, -, -, rfl⟩⟩ := readMembers_eq.mp h <;>
      exact List.cons_ne_nil _ _

/-- Only an object is read off a brace. -/
theorem Doc.exists_brace {fuel : Nat} {cs rest : List Char} (hne : ms ≠ [])
    (h : readWith fuel cs = (object ms true, rest)) :
    ∃ fuel' cs', skipSpace cs = '\x7b' :: cs' ∧ readMembers fuel' cs' = (ms, true, rest) := by
  cases fuel with
  | zero => cases h
  | succ fuel =>
    rw [readWith] at h
    split at h
    case h_4 cs' hcs =>
      split at h
      · cases h
        contradiction
      · rcases hread : readMembers fuel (skipSpace cs') with ⟨ms', closed, rest'⟩
        rw [hread] at h
        cases h
        exact ⟨fuel, cs', hcs, readMembers_skipSpace fuel cs' ▸ hread⟩
    case h_1 => cases h
    case h_5 | h_6 | h_7 =>
      unfold readWord at h
      split at h <;> cases h
    all_goals split at h <;> cases h

theorem exists_parts {fuel : Nat} {cs rest : List Char}
    (h : readMembers fuel cs = (ms, true, rest)) :
    ∃ parts, cs = joinMembers parts ++ '\x7d' :: rest ∧ List.Forall₂ SpellsMember parts ms := by
  induction fuel generalizing cs ms with
  | zero => cases h
  | succ fuel ih =>
    obtain ⟨key, d, after, left, left', hreadKey, hkey, hcolon, hread, hcases⟩ :=
      readMembers_eq.mp h
    obtain ⟨kpre, rfl, hkreads⟩ := (cuts fuel).1 hreadKey (isWhole_of_isKey hkey)
    obtain ⟨space, hspace, rfl⟩ := exists_space_of_skipSpace hcolon
    have hk : Spells (.ofList (kpre ++ space)) key := spells_of_reads hkreads hspace (by simp)
    rcases hcases with ⟨hend, rfl⟩ | ⟨ms, mid, hcomma, hmore, rfl⟩
    · have hwhole := (spares fuel).1 hread (ne_nil_of_skipSpace hend)
      obtain ⟨pre, rfl, hreads⟩ := (cuts fuel).1 hread hwhole
      obtain ⟨space', hspace', rfl⟩ := exists_space_of_skipSpace hend
      have hv : Spells (.ofList (pre ++ space')) d := spells_of_reads hreads hspace' (by simp)
      exact ⟨[(.ofList (kpre ++ space), .ofList (pre ++ space'))],
        by simp only [joinMembers, String.toList_ofList, List.append_assoc, List.cons_append],
        .cons ⟨⟨hk, hkey⟩, hv, hwhole⟩ .nil⟩
    · have hwhole := (spares fuel).1 hread (ne_nil_of_skipSpace hcomma)
      obtain ⟨pre, rfl, hreads⟩ := (cuts fuel).1 hread hwhole
      obtain ⟨space', hspace', rfl⟩ := exists_space_of_skipSpace hcomma
      have hv : Spells (.ofList (pre ++ space')) d := spells_of_reads hreads hspace' (by simp)
      obtain ⟨parts, rfl, hparts⟩ := ih hmore
      cases hparts with
      | nil => exact absurd rfl (readMembers_ne_nil hmore)
      | cons hpart hparts =>
        exact ⟨(.ofList (kpre ++ space), .ofList (pre ++ space')) :: _ :: _,
          by simp only [joinMembers, String.toList_ofList, List.append_assoc, List.cons_append],
          .cons ⟨⟨hk, hkey⟩, hv, hwhole⟩ (.cons hpart hparts)⟩

/-- A text of an object is the joined texts of its members, with blanks around it. -/
theorem spells_object_iff (hne : ms ≠ []) :
    Spells s (.object ms true) ↔ ∃ lead parts trail, Blank lead ∧ Blank trail ∧
      s.toList = lead ++ (objectText parts).toList ++ trail ∧
        List.Forall₂ SpellsMember parts ms := by
  constructor
  · rintro ⟨trail, hread, htrail⟩
    obtain ⟨fuel, cs, hbrace, hmembers⟩ := exists_brace hne hread
    obtain ⟨parts, rfl, hparts⟩ := exists_parts hmembers
    obtain ⟨lead, hlead, hs⟩ := exists_space_of_skipSpace hbrace
    exact ⟨lead, parts, trail, hlead, List.dropWhile_eq_nil_iff.mp htrail,
      by simp [hs, objectText], hparts⟩
  · rintro ⟨lead, parts, trail, hlead, htrail, hs, hparts⟩
    exact spells_of_reads ((reads_objectText hparts).after_space hlead) htrail hs

end OwnershipRegistry.Json
