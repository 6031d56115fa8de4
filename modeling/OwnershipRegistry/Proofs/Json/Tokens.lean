import Mathlib.Data.List.TakeWhile
import OwnershipRegistry.Proofs.Json.Quote

/-!
Tokens of JSON, read off the front of a text. What is read of a string, a word or a
numeral does not depend on what follows it, except that a numeral ends only where it
does not go on. So a natural number is read back from its digits.
-/

namespace OwnershipRegistry.Json

/-! ### Strings -/

theorem readUnits_prefix {cs rest : List Char} {us : List CodeUnit}
    (h : readUnits cs = some (us, rest)) :
    ∃ pre, cs = pre ++ rest ∧ ∀ rest', readUnits (pre ++ rest') = some (us, rest') := by
  fun_induction readUnits cs generalizing us rest with
  | case1 | case5 => cases h
  | case2 rest₁ =>
    cases h
    exact ⟨['"'], rfl, fun _ => rfl⟩
  | case3 a b c d rest₁ ih =>
    simp only [Option.bind_eq_bind, Option.bind_eq_some_iff] at h
    obtain ⟨x, hx, y, hy, z, hz, w, hw, ⟨us₁, rest₂⟩, hread, heq⟩ := h
    cases heq
    obtain ⟨pre, rfl, hpre⟩ := ih hread
    refine ⟨'\\' :: 'u' :: a :: b :: c :: d :: pre, rfl, fun rest' => ?_⟩
    simp only [List.cons_append, readUnits, hx, hy, hz, hw, hpre, Option.bind_eq_bind,
      Option.bind_some]
    rfl
  | case4 e rest₁ _ ih =>
    simp only [Option.bind_eq_bind, Option.bind_eq_some_iff] at h
    obtain ⟨c, hc, ⟨us₁, rest₂⟩, hread, heq⟩ := h
    cases heq
    obtain ⟨pre, rfl, hpre⟩ := ih hread
    have he : e ≠ 'u' := by
      rintro rfl
      cases hc
    refine ⟨'\\' :: e :: pre, rfl, fun rest' => ?_⟩
    rw [List.cons_append, List.cons_append, readUnits_short he hc, hpre]
    rfl
  | case6 c rest₁ hquote _ _ hplain ih =>
    simp only [Option.bind_eq_bind, Option.bind_eq_some_iff] at h
    obtain ⟨⟨us₁, rest₂⟩, hread, heq⟩ := h
    cases heq
    obtain ⟨pre, rfl, hpre⟩ := ih hread
    refine ⟨c :: pre, rfl, fun rest' => ?_⟩
    rw [List.cons_append, readUnits, if_neg hplain]
    · simp only [hpre, Option.bind_eq_bind, Option.bind_some]
      rfl
    · exact hquote
    · intro _ _ _ _ _ heq
      exact absurd (.inl heq) hplain
    · intro _ _ heq
      exact absurd (.inl heq) hplain

theorem readString_prefix {cs rest : List Char} {s : Option String}
    (h : readString cs = some (s, rest)) :
    ∃ pre, cs = pre ++ rest ∧ ∀ rest', readString (pre ++ rest') = some (s, rest') := by
  obtain ⟨⟨us, rest₁⟩, hread, heq⟩ := Option.map_eq_some_iff.mp h
  cases heq
  obtain ⟨pre, rfl, hpre⟩ := readUnits_prefix hread
  exact ⟨pre, rfl, fun rest' => by rw [readString, hpre]; rfl⟩

/-! ### Words -/

theorem afterWord?_eq_some {word cs rest : List Char} :
    afterWord? word cs = some rest ↔ cs = word ++ rest := by
  fun_induction afterWord? word cs with
  | case1 cs => simp
  | case2 ws c cs ih => simp [ih]
  | case3 w ws c cs h => simp [Ne.symm h]
  | case4 w ws => simp

/-! ### Numerals -/

/-- A text whose first character, if there is one, is no digit and none of some others. -/
def Stops (others rest : List Char) : Prop :=
  ∀ c ∈ rest.head?, c.isDigit = false ∧ c ∉ others

theorem stops_cons {others rest : List Char} {c : Char} (hdigit : c.isDigit = false)
    (hother : c ∉ others) : Stops others (c :: rest) := by
  rintro _ ⟨⟩
  exact ⟨hdigit, hother⟩

theorem Stops.mono {others others' rest : List Char} (h : Stops others rest)
    (hsub : others' ⊆ others) : Stops others' rest :=
  fun c hc => ⟨(h c hc).1, fun hmem => (h c hc).2 (hsub hmem)⟩

namespace Numeral

variable {cs ds rest : List Char}

theorem someDigits_eq_some :
    someDigits cs = some (ds, rest) ↔
      cs = ds ++ rest ∧ ds ≠ [] ∧ (∀ c ∈ ds, c.isDigit = true) ∧ Stops [] rest := by
  have hsplit : cs.takeWhile Char.isDigit ++ cs.dropWhile Char.isDigit = cs :=
    List.takeWhile_append_dropWhile
  constructor
  · intro h
    rw [someDigits] at h
    split at h
    · cases h
    · rename_i hne
      cases h
      refine ⟨hsplit.symm, hne, ?_, ?_⟩
      · exact fun c hc => List.mem_takeWhile_imp hc
      · intro c hc
        have hdigit := List.head?_dropWhile_not Char.isDigit cs
        rw [Option.mem_def.mp hc] at hdigit
        exact ⟨by simpa using hdigit, List.not_mem_nil⟩
  · rintro ⟨rfl, hne, hall, hstops⟩
    have hrest : rest.takeWhile Char.isDigit = [] ∧ rest.dropWhile Char.isDigit = rest := by
      cases rest with
      | nil => exact ⟨rfl, rfl⟩
      | cons c cs =>
        rw [List.takeWhile_cons, List.dropWhile_cons, (hstops c rfl).1]
        exact ⟨rfl, rfl⟩
    rw [someDigits, List.takeWhile_append_of_pos hall, List.dropWhile_append_of_pos hall, hrest.1,
      hrest.2, List.append_nil]
    split
    · contradiction
    · rfl

/-- Digits are read off whatever text goes on with no digit. -/
theorem someDigits_prefix (h : someDigits cs = some (ds, rest)) :
    (∃ c ds', ds = c :: ds' ∧ c.isDigit = true) ∧ cs = ds ++ rest ∧
      ∀ rest', Stops [] rest' → someDigits (ds ++ rest') = some (ds, rest') := by
  obtain ⟨hcs, hne, hall, -⟩ := someDigits_eq_some.mp h
  obtain ⟨c, ds', rfl⟩ := List.exists_cons_of_ne_nil hne
  exact ⟨⟨c, ds', rfl, hall c List.mem_cons_self⟩, hcs,
    fun rest' hstops => someDigits_eq_some.mpr ⟨rfl, hne, hall, hstops⟩⟩

theorem readWhole_prefix (h : readWhole cs = some (ds, rest)) :
    (∃ c ds', ds = c :: ds' ∧ c.isDigit = true) ∧ cs = ds ++ rest ∧
      ∀ rest', Stops [] rest' → readWhole (ds ++ rest') = some (ds, rest') := by
  obtain ⟨⟨ds₁, rest₁⟩, hread, hzero⟩ := Option.bind_eq_some_iff.mp h
  by_cases hne : ds₁.head? = some '0' ∧ 1 < ds₁.length
  · simp [hne] at hzero
  · simp only [if_neg hne] at hzero
    cases hzero
    obtain ⟨hfirst, hcs, hread'⟩ := someDigits_prefix hread
    refine ⟨hfirst, hcs, fun rest' hstops => ?_⟩
    simp only [readWhole, hread' rest' hstops, Option.bind_eq_bind, Option.bind_some, if_neg hne]

theorem readFraction_of_stops (h : Stops ['.'] rest) : readFraction rest = some (none, rest) := by
  unfold readFraction
  split
  · exact absurd List.mem_cons_self (h '.' rfl).2
  · rfl

theorem readFraction_prefix {f : Option (List Char)} (h : readFraction cs = some (f, rest)) :
    ∃ pre, cs = pre ++ rest ∧ (∀ rest', Stops [] rest' → Stops [] (pre ++ rest')) ∧
      ∀ rest', Stops ['.'] rest' → readFraction (pre ++ rest') = some (f, rest') := by
  unfold readFraction at h
  split at h
  · obtain ⟨⟨ds, rest₁⟩, hread, heq⟩ := Option.bind_eq_some_iff.mp h
    cases heq
    obtain ⟨-, rfl, hread'⟩ := someDigits_prefix hread
    refine ⟨'.' :: ds, rfl, fun _ _ => stops_cons rfl List.not_mem_nil, fun rest' hstops => ?_⟩
    simp only [List.cons_append, readFraction, hread' rest' (hstops.mono (List.nil_subset _)),
      Option.bind_eq_bind, Option.bind_some]
    rfl
  · cases h
    exact ⟨[], rfl, fun _ => id, fun _ => readFraction_of_stops⟩

/-- The digits of an exponent after its sign. -/
def readPower (negative : Bool) (cs : List Char) : Option (Option (Bool × List Char) × List Char) :=
  (someDigits cs).map fun x => (some (negative, x.1), x.2)

section Exponents

variable {c : Char} (hc : c = 'e' ∨ c = 'E')

include hc

theorem readExponent_plus (cs : List Char) :
    readExponent (c :: '+' :: cs) = readPower false cs := by
  simp only [readExponent, if_pos hc, readPower]
  cases someDigits cs <;> rfl

theorem readExponent_minus (cs : List Char) :
    readExponent (c :: '-' :: cs) = readPower true cs := by
  simp only [readExponent, if_pos hc, readPower]
  cases someDigits cs <;> rfl

theorem readExponent_unsigned (hplus : ∀ rest, cs ≠ '+' :: rest)
    (hminus : ∀ rest, cs ≠ '-' :: rest) :
    readExponent (c :: cs) = readPower false cs := by
  rw [readExponent, if_pos hc, readPower]
  · cases someDigits cs <;> rfl
  · exact hplus
  · exact hminus

end Exponents

theorem readExponent_other {c : Char} (hc : ¬(c = 'e' ∨ c = 'E')) (cs : List Char) :
    readExponent (c :: cs) = some (none, c :: cs) := by
  unfold readExponent
  simp only [if_neg hc]

theorem readExponent_of_stops (h : Stops ['.', 'e', 'E'] rest) :
    readExponent rest = some (none, rest) := by
  cases rest with
  | nil => rfl
  | cons c cs =>
    refine readExponent_other ?_ cs
    rintro (rfl | rfl)
    · exact (h 'e' rfl).2 (by decide)
    · exact (h 'E' rfl).2 (by decide)

theorem readPower_prefix {negative : Bool} {e : Option (Bool × List Char)}
    (h : readPower negative cs = some (e, rest)) :
    ∃ d pre, d.isDigit = true ∧ cs = d :: pre ++ rest ∧
      ∀ rest', Stops [] rest' → readPower negative (d :: pre ++ rest') = some (e, rest') := by
  obtain ⟨⟨ds, rest₁⟩, hread, heq⟩ := Option.map_eq_some_iff.mp h
  cases heq
  obtain ⟨⟨d, pre, rfl, hd⟩, rfl, hread'⟩ := someDigits_prefix hread
  exact ⟨d, pre, hd, rfl, fun rest' hstops => by rw [readPower, hread' rest' hstops]; rfl⟩

theorem readExponent_prefix {e : Option (Bool × List Char)} (h : readExponent cs = some (e, rest)) :
    ∃ pre, cs = pre ++ rest ∧ (∀ rest', Stops ['.'] rest' → Stops ['.'] (pre ++ rest')) ∧
      ∀ rest', Stops ['.', 'e', 'E'] rest' → readExponent (pre ++ rest') = some (e, rest') := by
  match cs with
  | [] =>
    cases h
    exact ⟨[], rfl, fun _ => id, fun _ => readExponent_of_stops⟩
  | c :: cs =>
    by_cases hc : c = 'e' ∨ c = 'E'
    · have hpoint (cs : List Char) : Stops ['.'] (c :: cs) := by
        rcases hc with rfl | rfl <;> exact stops_cons rfl (by decide)
      by_cases hplus : ∃ cs', cs = '+' :: cs'
      · obtain ⟨cs, rfl⟩ := hplus
        rw [readExponent_plus hc] at h
        obtain ⟨d, pre, -, rfl, hread⟩ := readPower_prefix h
        refine ⟨c :: '+' :: d :: pre, rfl, fun _ _ => hpoint _, fun rest' hstops => ?_⟩
        exact (readExponent_plus hc _).trans (hread rest' (hstops.mono (List.nil_subset _)))
      by_cases hminus : ∃ cs', cs = '-' :: cs'
      · obtain ⟨cs, rfl⟩ := hminus
        rw [readExponent_minus hc] at h
        obtain ⟨d, pre, -, rfl, hread⟩ := readPower_prefix h
        refine ⟨c :: '-' :: d :: pre, rfl, fun _ _ => hpoint _, fun rest' hstops => ?_⟩
        exact (readExponent_minus hc _).trans (hread rest' (hstops.mono (List.nil_subset _)))
      · rw [readExponent_unsigned hc (fun _ heq => hplus ⟨_, heq⟩)
          fun _ heq => hminus ⟨_, heq⟩] at h
        obtain ⟨d, pre, hd, rfl, hread⟩ := readPower_prefix h
        refine ⟨c :: d :: pre, rfl, fun _ _ => hpoint _, fun rest' hstops => ?_⟩
        have hpower := hread rest' (hstops.mono (List.nil_subset _))
        refine (readExponent_unsigned hc ?_ ?_).trans hpower <;> (rintro cs' ⟨⟩; cases hd)
    · rw [readExponent_other hc] at h
      cases h
      exact ⟨[], rfl, fun _ => id, fun _ => readExponent_of_stops⟩

/-- The parts of a numeral after its sign. -/
def readParts (negative : Bool) (cs : List Char) : Option (Numeral × List Char) := do
  let (whole, cs) ← readWhole cs
  let (fraction, cs) ← readFraction cs
  let (exponent, cs) ← readExponent cs
  return (⟨negative, whole, fraction, exponent⟩, cs)

theorem read_of_ne (h : ∀ rest, cs ≠ '-' :: rest) : read cs = readParts false cs := by
  rw [read]
  · rfl
  · exact h

theorem readParts_prefix {negative : Bool} {n : Numeral}
    (h : readParts negative cs = some (n, rest)) :
    ∃ c pre, c.isDigit = true ∧ cs = c :: pre ++ rest ∧
      ∀ rest', Stops ['.', 'e', 'E'] rest' →
        readParts negative (c :: pre ++ rest') = some (n, rest') := by
  simp only [readParts, Option.bind_eq_bind, Option.bind_eq_some_iff] at h
  obtain ⟨⟨whole, cs₁⟩, hwhole, ⟨fraction, cs₂⟩, hfraction, ⟨exponent, cs₃⟩, hexponent, heq⟩ := h
  cases heq
  obtain ⟨⟨c, ds, rfl, hc⟩, rfl, hwhole'⟩ := readWhole_prefix hwhole
  obtain ⟨pf, rfl, hpf, hfraction'⟩ := readFraction_prefix hfraction
  obtain ⟨pe, rfl, hpe, hexponent'⟩ := readExponent_prefix hexponent
  refine ⟨c, ds ++ (pf ++ pe), hc, by simp, fun rest' hstops => ?_⟩
  have hpoint := hpe rest' (hstops.mono (by decide))
  have htext : c :: (ds ++ (pf ++ pe)) ++ rest' = (c :: ds) ++ (pf ++ (pe ++ rest')) := by simp
  rw [htext, readParts, hwhole' _ (hpf _ (hpoint.mono (List.nil_subset _)))]
  simp only [Option.bind_eq_bind, Option.bind_some, hfraction' _ hpoint, hexponent' _ hstops]
  rfl

/-- A numeral is read off whatever text does not go on with it. -/
theorem read_prefix {n : Numeral} (h : read cs = some (n, rest)) :
    ∃ c pre, cs = c :: pre ++ rest ∧
      ∀ rest', Stops ['.', 'e', 'E'] rest' → read (c :: pre ++ rest') = some (n, rest') := by
  by_cases hsign : ∃ cs', cs = '-' :: cs'
  · obtain ⟨cs', rfl⟩ := hsign
    have hparts : readParts true cs' = some (n, rest) := h
    obtain ⟨c, pre, -, rfl, hread⟩ := readParts_prefix hparts
    exact ⟨'-', c :: pre, rfl, hread⟩
  · have hne : ∀ cs', cs ≠ '-' :: cs' := fun cs' heq => hsign ⟨cs', heq⟩
    rw [read_of_ne hne] at h
    obtain ⟨c, pre, hdigit, rfl, hread⟩ := readParts_prefix h
    refine ⟨c, pre, rfl, fun rest' hstops => ?_⟩
    rw [read_of_ne, hread rest' hstops]
    intro cs' heq
    obtain rfl := (List.cons.inj heq).1
    cases hdigit

theorem readWhole_digits (n : Nat) (h : Stops [] rest) :
    readWhole (digits n ++ rest) = some (digits n, rest) := by
  have hzero : ¬((digits n).head? = some '0' ∧ 1 < (digits n).length) := by
    rintro ⟨hhead, hlength⟩
    rcases Nat.eq_zero_or_pos n with rfl | hpos
    · exact absurd hlength (by decide)
    · exact head?_digits hpos hhead
  have hread : someDigits (digits n ++ rest) = some (digits n, rest) :=
    someDigits_eq_some.mpr ⟨rfl, digits_ne_nil n, isDigit_of_mem_digits n, h⟩
  simp only [readWhole, hread, Option.bind_eq_bind, Option.bind_some, if_neg hzero]

/-- After its sign, a whole number is read back from its digits. -/
theorem readParts_digits (negative : Bool) (n : Nat) (h : Stops ['.', 'e', 'E'] rest) :
    readParts negative (digits n ++ rest) = some (⟨negative, digits n, none, none⟩, rest) := by
  have hpoint : Stops ['.'] rest := h.mono (by decide)
  rw [readParts]
  simp only [readWhole_digits n (hpoint.mono (List.nil_subset _)), readFraction_of_stops hpoint,
    readExponent_of_stops h, Option.bind_eq_bind, Option.bind_some]
  rfl

/-- A natural number is read back from its digits. -/
theorem read_ofNat (n : Nat) (h : Stops ['.', 'e', 'E'] rest) :
    read ((ofNat n).text ++ rest) = some (ofNat n, rest) := by
  have htext : (ofNat n).text = digits n := by simp [text, ofNat]
  obtain ⟨c, cs, hcs⟩ := List.exists_cons_of_ne_nil (digits_ne_nil n)
  have hdigit : c.isDigit = true := isDigit_of_mem_digits n c (hcs ▸ List.mem_cons_self)
  rw [htext, read_of_ne, readParts_digits false n h]
  · rfl
  · intro rest' heq
    rw [hcs] at heq
    obtain ⟨rfl, -⟩ := List.cons.inj heq
    cases hdigit

theorem value?_ofNat {n : Nat} (h : n < 2 ^ 64) : (ofNat n).value? = some (.integer n) := by
  simp only [value?, ofNat, ofDigits_digits]
  simp [h]

end Numeral

end OwnershipRegistry.Json
