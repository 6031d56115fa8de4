import OwnershipRegistry.Json.Reader
import OwnershipRegistry.Proofs.Text.Digits

/-!
Strings of JSON, read back. What is written for a character is read as that character,
whichever way it is escaped, so a quoted string is read as itself, whatever follows it.
-/

namespace OwnershipRegistry

theorem hexValue?_hexDigit : ∀ n < 16, hexValue? (hexDigit n) = some n := by decide

/-! ### Digits without a width -/

theorem digits_ne_nil (n : Nat) : digits n ≠ [] := Nat.toDigits_ne_nil

theorem isDigit_of_mem_digits (n : Nat) : ∀ c ∈ digits n, c.isDigit = true :=
  fun _ hc => Nat.isDigit_of_mem_toDigits (by decide) (by decide) hc

theorem ofDigits_digits (n : Nat) : ofDigits (digits n) = n := Nat.ofDigitChars_ten_toDigits

/-- The first digit of a number is no zero, unless the number is. -/
theorem head?_digits {n : Nat} (h : 0 < n) : (digits n).head? ≠ some '0' := by
  have hsmall : ∀ n < 10, 0 < n → [n.digitChar].head? ≠ some '0' := by decide
  induction n using Nat.strongRecOn with
  | _ n ih =>
      by_cases hn : n < 10
      · rw [digits, Nat.toDigits_of_lt_base hn]
        exact hsmall n hn h
      · have hsplit : digits n = digits (n / 10) ++ [(n % 10).digitChar] :=
          Nat.toDigits_of_base_le (by decide) (by omega)
        obtain ⟨c, cs, hcs⟩ := List.exists_cons_of_ne_nil (digits_ne_nil (n / 10))
        have hfirst := ih (n / 10) (by omega) (by omega)
        rw [hcs] at hfirst
        rw [hsplit, hcs]
        exact hfirst

namespace Json

/-! ### Strings -/

/-- A control is named by its code, which is that of a character and no half of a
pair. -/
theorem ofCode_toNat {c : Char} (h : c.toNat < 32) : CodeUnit.ofCode c.toNat = .char c := by
  rw [CodeUnit.ofCode, if_neg (by omega), Char.ofNat_toNat]

theorem readUnits_short {e c : Char} (he : e ≠ 'u') (h : shortEscape? e = some c)
    (rest : List Char) :
    readUnits ('\\' :: e :: rest) = (readUnits rest).map fun x => (.char c :: x.1, x.2) := by
  rw [readUnits]
  · rw [h]
    cases readUnits rest <;> rfl
  · rintro a b c d rest' rfl
    exact absurd rfl he

/-- Whichever way a character is written, it is read as itself. -/
theorem readUnits_escapedChar (c : Char) (rest : List Char) :
    readUnits (escapedChar c ++ rest) =
      (readUnits rest).map fun x => (.char c :: x.1, x.2) := by
  unfold escapedChar
  split
  case h_8 hquote hbackslash _ _ _ _ _ =>
    split_ifs with hcontrol
    · have hhigh := hexValue?_hexDigit (c.toNat / 16) (by omega)
      have hlow := hexValue?_hexDigit (c.toNat % 16) (by omega)
      have hzero : hexValue? '0' = some 0 := by decide
      have hcode : 4096 * 0 + 256 * 0 + 16 * (c.toNat / 16) + c.toNat % 16 = c.toNat := by omega
      simp only [List.cons_append, List.nil_append, readUnits, hzero, hhigh, hlow,
        Option.bind_eq_bind, Option.bind_some, hcode, ofCode_toNat hcontrol]
      cases readUnits rest <;> rfl
    · have hplain : ¬(c = '\\' ∨ c.toNat < 32) := by
        rintro (h | h)
        · exact hbackslash h
        · exact hcontrol h
      simp only [List.cons_append, List.nil_append]
      rw [readUnits, if_neg hplain]
      · cases readUnits rest <;> rfl
      · exact hquote
      · intro _ _ _ _ _ heq
        exact absurd heq hbackslash
      · intro _ _ heq
        exact absurd heq hbackslash
  all_goals exact readUnits_short (by decide) rfl rest

theorem readUnits_quoted (cs rest : List Char) :
    readUnits (cs.flatMap escapedChar ++ '"' :: rest) = some (cs.map .char, rest) := by
  induction cs with
  | nil => rfl
  | cons c cs ih =>
      rw [List.flatMap_cons, List.append_assoc, readUnits_escapedChar, ih]
      rfl

theorem joinUnits_map_char (cs : List Char) : joinUnits (cs.map .char) = some cs := by
  induction cs with
  | nil => rfl
  | cons c cs ih =>
      rw [List.map_cons, joinUnits, ih]
      rfl

/-- What follows the first quote of a quoted string is read up to the last one. -/
theorem readString_quote (s : String) (rest : List Char) :
    readString (s.toList.flatMap escapedChar ++ '"' :: rest) = some (some s, rest) := by
  rw [readString, readUnits_quoted, Option.map_some]
  simp only [joinUnits_map_char, Option.map_some, String.ofList_toList]

end Json

end OwnershipRegistry
