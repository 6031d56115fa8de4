import OwnershipRegistry.Proofs.Json.Quote
import OwnershipRegistry.Proofs.Time.Strict
import OwnershipRegistry.Time.Lenient

/-!
What the printer writes, the lenient reader reads. It knows a larger language than the
strict one: years of any width after a sign, and with them every instant that there
is. A sign is written where it is read, and as many digits of the year as there are;
no part of what is written begins with a blank, so the blanks that the reader would
pass over are nowhere. The year of an instant is within the bounds that the reader
asks for, since its day is.
-/

namespace OwnershipRegistry

open OwnershipRegistry.Except (ok_bind)

/-! ### Numbers of any width -/

theorem isDigit_of_mem_padded_of_any {width n : Nat} : ∀ c ∈ padded width n, c.isDigit = true := by
  intro c hc
  rcases List.mem_append.mp hc with hc | hc
  · rw [List.eq_of_mem_replicate hc]
    rfl
  · exact isDigit_of_mem_digits n c hc

theorem ofDigits_zeros_append (k : Nat) (ds : List Char) :
    ofDigits (List.replicate k '0' ++ ds) = ofDigits ds := by
  induction k with
  | zero => rfl
  | succ k ih => exact ih

theorem ofDigits_padded_of_any (width n : Nat) : ofDigits (padded width n) = n := by
  rw [padded, ofDigits_zeros_append, ofDigits_digits]

theorem padded_ne_nil (width n : Nat) : padded width n ≠ [] :=
  List.append_ne_nil_of_right_ne_nil _ (digits_ne_nil n)

theorem isBlank_of_isDigit {c : Char} (h : c.isDigit = true) : isBlank c = false := by
  simp only [Char.isDigit, Bool.and_eq_true, decide_eq_true_eq, ge_iff_le,
    UInt32.le_iff_toNat_le] at h
  have hrange : 48 ≤ c.toNat ∧ c.toNat ≤ 57 := h
  simp only [isBlank, Bool.or_eq_false_iff, Bool.and_eq_false_iff, decide_eq_false_iff_not,
    beq_eq_false_iff_ne]
  omega

theorem skipBlanks_cons {c : Char} (h : isBlank c = false) (cs : List Char) :
    skipBlanks (c :: cs) = c :: cs :=
  List.dropWhile_cons_of_neg (by simp [h])

theorem skipBlanks_padded (width n : Nat) (cs : List Char) :
    skipBlanks (padded width n ++ cs) = padded width n ++ cs := by
  obtain ⟨d, ds, hds⟩ := List.exists_cons_of_ne_nil (padded_ne_nil width n)
  have hdigit : d.isDigit = true := isDigit_of_mem_padded_of_any d (hds ▸ List.mem_cons_self)
  rw [hds, List.cons_append, skipBlanks_cons (isBlank_of_isDigit hdigit)]

/-! ### The calendar -/

namespace Date

/-- Days count up with the years. -/
theorem year_le_of_dayNumber_le {d d' : Date} (hd : d.isValid = true) (hd' : d'.isValid = true)
    (h : d.dayNumber ≤ d'.dayNumber) : d.year ≤ d'.year := by
  obtain ⟨hmonth, hmonths, hday, -⟩ := isValid_iff.mp hd
  obtain ⟨hmonth', hmonths', hday', hdays'⟩ := isValid_iff.mp hd'
  have hlong := daysInMonth_le d'.year d'.month
  by_contra hlt
  simp only [dayNumber, daysBeforeMonth] at h
  split at h <;> split at h <;> omega

end Date

namespace Scan

/-- A number of digits is read up to a character that is none. -/
theorem number_padded {width : Nat} (places n : Nat) {cs : List Char} {c : Char}
    (hwidth : (padded places n).length ≤ width) (hc : c.isDigit = false) :
    number width (padded places n ++ c :: cs) = .ok (n, c :: cs) := by
  have htake : takeDigits width (padded places n ++ c :: cs) = (padded places n, c :: cs) :=
    takeDigits_append isDigit_of_mem_padded_of_any hwidth hc
  obtain ⟨d, ds, hds⟩ := List.exists_cons_of_ne_nil (padded_ne_nil places n)
  have hvalue : ofDigits (d :: ds) = n := hds ▸ ofDigits_padded_of_any places n
  rw [number, htake, hds]
  simp only [hvalue]

end Scan

namespace Lenient

open Scan

theorem numberWithin_padded {low high n : Nat} {cs : List Char} {c : Char} (hlow : low ≤ n)
    (hhigh : n ≤ high) (hn : n < 100) (hc : c.isDigit = false) :
    numberWithin low high (padded 2 n ++ c :: cs) = .ok (n, c :: cs) := by
  have hlength : (padded 2 n).length ≤ 2 := (length_padded hn).le
  rw [numberWithin, skipBlanks_padded, number_padded 2 n hlength hc, ok_bind]
  simp only [hlow, hhigh, and_self, if_true]
  rfl

theorem spacedMark_cons {m : Char} (hm : isBlank m = false) (cs : List Char) :
    spacedMark m (m :: cs) = .ok cs := by
  rw [spacedMark, skipBlanks_cons hm, mark, if_pos rfl]

/-- A year is read as it is written, with a sign or without. -/
theorem year_text {y : Int} {cs : List Char} {c : Char} (hy : y.natAbs < 2 ^ 31)
    (hc : c.isDigit = false) : year (yearText y ++ c :: cs) = .ok (y, c :: cs) := by
  rw [yearText]
  split_ifs with hplain hneg
  · have hvalue : (y.toNat : Int) = y := Int.toNat_of_nonneg hplain.1
    have hlength : (padded 4 y.toNat).length ≤ 4 := (length_padded (by omega)).le
    obtain ⟨d, ds, hds⟩ := List.exists_cons_of_ne_nil (padded_ne_nil 4 y.toNat)
    have hdigit : d.isDigit = true := isDigit_of_mem_padded_of_any d (hds ▸ List.mem_cons_self)
    rw [year, skipBlanks_padded]
    split
    · rename_i rest heq
      rw [hds, List.cons_append, List.cons.injEq] at heq
      rw [heq.1] at hdigit
      cases hdigit
    · rename_i rest heq
      rw [hds, List.cons_append, List.cons.injEq] at heq
      rw [heq.1] at hdigit
      cases hdigit
    · rw [number_padded 4 _ hlength hc]
      exact congrArg (fun y => Except.ok (y, c :: cs)) hvalue
  · have hwidth : (padded 4 y.natAbs).length ≤ (padded 4 y.natAbs ++ c :: cs).length := by
      rw [List.length_append]
      exact Nat.le_add_right _ _
    have hvalue : -(y.natAbs : Int) = y := by omega
    have hle : y.natAbs ≤ 2 ^ 31 := hy.le
    rw [year, List.cons_append, skipBlanks_cons rfl]
    simp only [number_padded 4 _ hwidth hc, ok_bind, hle, if_true, hvalue]
    rfl
  · have hwidth : (padded 4 y.natAbs).length ≤ (padded 4 y.natAbs ++ c :: cs).length := by
      rw [List.length_append]
      exact Nat.le_add_right _ _
    have hvalue : (y.natAbs : Int) = y := by omega
    rw [year, List.cons_append, skipBlanks_cons rfl]
    simp only [number_padded 4 _ hwidth hc, ok_bind, hy, if_true, hvalue]
    rfl

theorem date_text {d : Date} (hvalid : d.isValid = true) (hyear : d.year.natAbs < 2 ^ 31)
    {cs : List Char} {c : Char} (hc : c.isDigit = false) :
    date (d.text ++ c :: cs) = .ok (d, c :: cs) := by
  obtain ⟨hmonth, hmonths, hday, hdays⟩ := Date.isValid_iff.mp hvalid
  have hlong : Date.daysInMonth d.year d.month ≤ 31 := Date.daysInMonth_le d.year d.month
  have hmark (cs : List Char) : spacedMark '-' ('-' :: cs) = .ok cs := spacedMark_cons rfl cs
  rw [Date.text, date]
  simp only [List.append_assoc, List.cons_append]
  rw [year_text hyear rfl, ok_bind, hmark, ok_bind,
    numberWithin_padded hmonth hmonths (by omega) rfl, ok_bind, hmark, ok_bind,
    numberWithin_padded hday (by omega) (by omega) hc, ok_bind]
  rfl

/-- What follows the seconds begins with a point or with what comes next. -/
theorem exists_fractionText_cons (nano : Nat) (cs : List Char) {c : Char}
    (hc : c.isDigit = false) :
    ∃ c' cs', fractionText nano ++ c :: cs = c' :: cs' ∧ c'.isDigit = false := by
  rw [fractionText]
  split_ifs
  · exact ⟨c, cs, rfl, hc⟩
  · exact ⟨'.', _, rfl, rfl⟩
  · exact ⟨'.', _, rfl, rfl⟩
  · exact ⟨'.', _, rfl, rfl⟩

theorem timeOfDay_text {hour minute second nano : Nat} {cs : List Char} {c : Char}
    (hhour : hour < 24) (hminute : minute < 60) (hsecond : second ≤ 60) (hnano : nano < 10 ^ 9)
    (hc : c.isDigit = false) (hpoint : c ≠ '.') :
    timeOfDay (padded 2 hour ++ ':' :: (padded 2 minute ++ ':' :: (padded 2 second ++
        (fractionText nano ++ c :: cs)))) =
      .ok ((3600 * hour + 60 * minute + (leapSecond second).1, (leapSecond second).2 + nano),
        c :: cs) := by
  have hmark (cs : List Char) : spacedMark ':' (':' :: cs) = .ok cs := spacedMark_cons rfl cs
  obtain ⟨c', cs', hrest, hc'⟩ := exists_fractionText_cons nano cs hc
  have hhours (cs : List Char) :
      numberWithin 0 23 (padded 2 hour ++ ':' :: cs) = .ok (hour, ':' :: cs) :=
    numberWithin_padded (Nat.zero_le _) (by omega) (by omega) rfl
  have hminutes (cs : List Char) :
      numberWithin 0 59 (padded 2 minute ++ ':' :: cs) = .ok (minute, ':' :: cs) :=
    numberWithin_padded (Nat.zero_le _) (by omega) (by omega) rfl
  have hseconds : numberWithin 0 60 (padded 2 second ++ (fractionText nano ++ c :: cs)) =
      .ok (second, fractionText nano ++ c :: cs) := by
    rw [hrest]
    exact numberWithin_padded (Nat.zero_le _) hsecond (by omega) hc'
  rw [timeOfDay]
  simp only [hhours, hminutes, hseconds, hmark, optionalFraction_text hnano hc hpoint, ok_bind]
  rfl

end Lenient

namespace Instant

theorem year_within (i : Instant) :
    -262143 ≤ (Date.ofDayNumber i.day).year ∧ (Date.ofDayNumber i.day).year ≤ 262142 := by
  have hvalid := Date.isValid_ofDayNumber i.day
  have hday := Date.dayNumber_ofDayNumber i.day
  have hfirst : (Date.mk (-262143) 1 1).dayNumber ≤ (Date.ofDayNumber i.day).dayNumber := by
    rw [hday]
    exact i.first_le
  have hlast : (Date.ofDayNumber i.day).dayNumber ≤ (Date.mk 262142 12 31).dayNumber := by
    rw [hday]
    exact i.le_last
  exact ⟨Date.year_le_of_dayNumber_le (by decide) hvalid hfirst,
    Date.year_le_of_dayNumber_le hvalid (by decide) hlast⟩

theorem lenientTimeOfDay_clock (i : Instant) :
    Lenient.timeOfDay (padded 2 (i.second / 3600) ++ ':' :: (padded 2 (i.second / 60 % 60) ++
        ':' :: (padded 2 i.shownSecond ++ (fractionText (i.nano % 10 ^ 9) ++ ['Z'])))) =
      .ok ((i.second, i.nano), ['Z']) := by
  have hsecond := i.second_lt
  rw [Lenient.timeOfDay_text (by omega) (by omega) i.shownSecond_le (by omega) rfl (by decide),
    shown_parts]

/-- Every instant is read from a record as it was written. -/
theorem ofLenientText_zuluText (i : Instant) : ofLenientText i.zuluText = .ok i := by
  obtain ⟨hfirst, hlast⟩ := i.year_within
  have hdate (cs : List Char) : Lenient.date ((Date.ofDayNumber i.day).text ++ 'T' :: cs) =
      .ok (Date.ofDayNumber i.day, 'T' :: cs) :=
    Lenient.date_text (Date.isValid_ofDayNumber i.day) (by omega) rfl
  have hzone : Lenient.zone (skipBlanks ['Z']) = .ok (0, []) := rfl
  have hseparator : Scan.isSeparator 'T' = true := rfl
  have hpure (cs : List Char) : (pure cs : Except Refusal (List Char)) = .ok cs := rfl
  have hvalid := Date.isValid_ofDayNumber i.day
  rw [ofLenientText, zuluText, String.toList_ofList, clockText]
  simp only [List.append_assoc, List.cons_append, hdate, hseparator, if_true, hpure,
    lenientTimeOfDay_clock, hzone, ok_bind, ofClock?_self, hvalid, hfirst, hlast]
  rfl

end Instant

end OwnershipRegistry
