import Mathlib.Tactic.Common
import OwnershipRegistry.Text.Hex

/-!
Decimal digits, read back. A number written in a width that holds it has exactly
that width, consists of digits, and is what its digits stand for.
-/

namespace OwnershipRegistry

theorem isDigit_digitChar_mod (n : Nat) : (n % 10).digitChar.isDigit = true := by
  rw [Nat.isDigit_digitChar, decide_eq_true_iff]
  exact Nat.mod_lt n (by decide)

theorem digitValue_digitChar {n : Nat} (h : n < 10) : digitValue n.digitChar = n :=
  Nat.toNat_digitChar_sub_48_of_lt_ten h

theorem ofDigits_append_singleton (cs : List Char) (c : Char) :
    ofDigits (cs ++ [c]) = 10 * ofDigits cs + digitValue c := by
  rw [ofDigits, List.foldl_append]
  rfl

theorem padded_one {n : Nat} (h : n < 10) : padded 1 n = [n.digitChar] := by
  rw [padded, digits, Nat.toDigits_of_lt_base h]
  rfl

/-- A further place of a width holds the last digit. -/
theorem padded_succ (width n : Nat) :
    padded (width + 2) n = padded (width + 1) (n / 10) ++ [(n % 10).digitChar] := by
  simp only [padded, digits]
  by_cases hn : n < 10
  -- the places before a single digit are zeros, the one of its tens among them
  · rw [Nat.div_eq_of_lt hn, Nat.mod_eq_of_lt hn, Nat.toDigits_of_lt_base hn, Nat.toDigits_zero]
    simp [List.replicate_succ']
  · have hsplit : Nat.toDigits 10 n = Nat.toDigits 10 (n / 10) ++ [(n % 10).digitChar] :=
      Nat.toDigits_of_base_le (by decide) (by omega)
    have hzeros : width + 2 - (Nat.toDigits 10 n).length =
        width + 1 - (Nat.toDigits 10 (n / 10)).length := by
      rw [hsplit, List.length_append, List.length_singleton]
      omega
    rw [hzeros, hsplit, List.append_assoc]

theorem le_length_padded (width n : Nat) : width ≤ (padded width n).length := by
  rw [padded, List.length_append, List.length_replicate]
  omega

section Width

variable {width n : Nat}

theorem div_ten_lt (h : n < 10 ^ (width + 1)) : n / 10 < 10 ^ width := by
  rw [Nat.pow_succ] at h
  omega

theorem length_padded (h : n < 10 ^ (width + 1)) : (padded (width + 1) n).length = width + 1 := by
  induction width generalizing n with
  | zero => rw [padded_one h, List.length_singleton]
  | succ width ih =>
      rw [padded_succ, List.length_append, ih (div_ten_lt h), List.length_singleton]

theorem isDigit_of_mem_padded (h : n < 10 ^ (width + 1)) :
    ∀ c ∈ padded (width + 1) n, c.isDigit = true := by
  induction width generalizing n with
  | zero =>
      intro c hc
      rw [padded_one h, List.mem_singleton] at hc
      rw [hc, Nat.isDigit_digitChar, decide_eq_true_iff]
      exact h
  | succ width ih =>
      intro c hc
      rw [padded_succ, List.mem_append, List.mem_singleton] at hc
      rcases hc with hc | rfl
      · exact ih (div_ten_lt h) c hc
      · exact isDigit_digitChar_mod n

theorem ofDigits_padded (h : n < 10 ^ (width + 1)) : ofDigits (padded (width + 1) n) = n := by
  induction width generalizing n with
  | zero =>
      have hdigit : digitValue n.digitChar = n := digitValue_digitChar h
      rw [padded_one h]
      show 10 * 0 + digitValue n.digitChar = n
      omega
  | succ width ih =>
      have hdigit : digitValue (n % 10).digitChar = n % 10 :=
        digitValue_digitChar (Nat.mod_lt n (by decide))
      rw [padded_succ, ofDigits_append_singleton, ih (div_ten_lt h), hdigit]
      omega

end Width

/-! ### Pairs of digits -/

theorem padded_two {n : Nat} (h : n < 100) :
    padded 2 n = [(n / 10).digitChar, (n % 10).digitChar] := by
  rw [padded_succ, padded_one (by omega)]
  rfl

/-- Four digits are two pairs. -/
theorem padded_four (n : Nat) : padded 4 n = padded 2 (n / 100) ++ padded 2 (n % 100) := by
  have hpair : padded 2 (n % 100) = [(n / 10 % 10).digitChar, (n % 10).digitChar] := by
    rw [padded_two (Nat.mod_lt n (by decide))]
    have htens : n % 100 / 10 = n / 10 % 10 := by omega
    have hones : n % 100 % 10 = n % 10 := by omega
    rw [htens, hones]
  rw [padded_succ, padded_succ, hpair, Nat.div_div_eq_div_mul, List.append_assoc]
  rfl

end OwnershipRegistry
