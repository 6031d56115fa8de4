import OwnershipRegistry.Proofs.Outcome
import OwnershipRegistry.Proofs.Text.Digits
import OwnershipRegistry.Proofs.Time.Calendar
import OwnershipRegistry.Time.Printer
import OwnershipRegistry.Time.Strict

/-!
What the printer writes, the strict reader reads. Each reader takes its part off
the front of what was written and leaves the rest, so that the parts are read one
after the other. Years beyond 9999 and before 0 are written in a form that the
strict reader does not know.
-/

namespace OwnershipRegistry

open OwnershipRegistry.Except (ok_bind)

namespace Scan

theorem takeDigits_append {width : Nat} {ds cs : List Char} {c : Char}
    (hds : ∀ d ∈ ds, d.isDigit = true) (hwidth : ds.length ≤ width) (hc : c.isDigit = false) :
    takeDigits width (ds ++ c :: cs) = (ds, c :: cs) := by
  induction ds generalizing width with
  | nil =>
      cases width with
      | zero => rfl
      | succ width => simp [takeDigits, hc]
  | cons d ds ih =>
      cases width with
      | zero => simp at hwidth
      | succ width =>
          have hd : d.isDigit = true := hds d List.mem_cons_self
          have hrest : takeDigits width (ds ++ c :: cs) = (ds, c :: cs) :=
            ih (fun x hx => hds x (List.mem_cons_of_mem d hx)) (Nat.le_of_succ_le_succ hwidth)
          rw [List.cons_append, takeDigits, if_pos hd, hrest]

theorem fraction_padded (width : Nat) {n : Nat} {cs : List Char} {c : Char} (hwidth : width < 9)
    (hn : n < 10 ^ (width + 1)) (hc : c.isDigit = false) :
    fraction (padded (width + 1) n ++ c :: cs) = .ok (n * 10 ^ (8 - width), c :: cs) := by
  have hlength : (padded (width + 1) n).length = width + 1 := length_padded hn
  have htake : takeDigits 9 (padded (width + 1) n ++ c :: cs) =
      (padded (width + 1) n, c :: cs) :=
    takeDigits_append (isDigit_of_mem_padded hn) (by omega) hc
  -- the reader tells an empty fraction from one with digits
  obtain ⟨d, ds, hds⟩ : ∃ d ds, padded (width + 1) n = d :: ds :=
    List.exists_cons_of_length_eq_add_one hlength
  have hvalue : ofDigits (d :: ds) = n := hds ▸ ofDigits_padded hn
  have hplaces : 9 - (d :: ds).length = 8 - width := by
    rw [← hds, hlength]
    omega
  rw [fraction, htake, hds]
  simp only [hvalue, hplaces, List.dropWhile_cons, hc, Bool.false_eq_true, if_false]

/-- A fraction is read as it was written, whatever its number of digits. -/
theorem optionalFraction_text {nano : Nat} {cs : List Char} {c : Char} (hnano : nano < 10 ^ 9)
    (hc : c.isDigit = false) (hpoint : c ≠ '.') :
    optionalFraction (fractionText nano ++ c :: cs) = .ok (nano, c :: cs) := by
  rw [fractionText]
  split_ifs with hzero hmillis hmicros
  · subst hzero
    rw [List.nil_append, optionalFraction]
    rintro rest heq
    exact hpoint (List.cons.inj heq).1
  · rw [List.cons_append, optionalFraction, fraction_padded 2 (by decide) (by omega) hc]
    have hsame : nano / 10 ^ 6 * 10 ^ (8 - 2) = nano := by omega
    rw [hsame]
  · rw [List.cons_append, optionalFraction, fraction_padded 5 (by decide) (by omega) hc]
    have hsame : nano / 10 ^ 3 * 10 ^ (8 - 5) = nano := by omega
    rw [hsame]
  · rw [List.cons_append, optionalFraction, fraction_padded 8 (by decide) hnano hc]
    have hsame : nano * 10 ^ (8 - 8) = nano := by omega
    rw [hsame]

end Scan

namespace Strict

open Scan

theorem pair_padded {n : Nat} (h : n < 100) (cs : List Char) :
    pair (padded 2 n ++ cs) = .ok (n, cs) := by
  have htens : (n / 10).digitChar.isDigit = true := by
    rw [Nat.isDigit_digitChar, decide_eq_true_iff]
    omega
  have hvalue : ofDigits [(n / 10).digitChar, (n % 10).digitChar] = n := by
    rw [← padded_two h]
    exact ofDigits_padded h
  rw [padded_two h, pair]
  simp only [List.cons_append, List.nil_append, digit, htens, isDigit_digitChar_mod, if_true,
    ok_bind, hvalue]
  rfl

theorem fixedMark_cons {p : Char → Bool} {c : Char} (h : p c = true) (cs : List Char) :
    fixedMark p (c :: cs) = .ok cs := by
  rw [fixedMark, if_pos h]

theorem date_text {d : Date} (hvalid : d.isValid = true) (hfirst : 0 ≤ d.year)
    (hlast : d.year ≤ 9999) (cs : List Char) : date (d.text ++ cs) = .ok (d, cs) := by
  obtain ⟨hmonth, hmonths, hday, hdays⟩ := Date.isValid_iff.mp hvalid
  have hlong : Date.daysInMonth d.year d.month ≤ 31 := Date.daysInMonth_le d.year d.month
  have hyear : ((100 * (d.year.toNat / 100) + d.year.toNat % 100 : Nat) : Int) = d.year := by
    omega
  rw [Date.text, yearText, if_pos ⟨hfirst, hlast⟩, padded_four, date]
  simp only [List.append_assoc, List.cons_append]
  rw [pair_padded (by omega)]
  rw [ok_bind, pair_padded (by omega), ok_bind, fixedMark_cons rfl, ok_bind,
    pair_padded (by omega), ok_bind, fixedMark_cons rfl, ok_bind, pair_padded (by omega), ok_bind]
  simp only [hyear, hvalid, if_true]
  rfl

theorem timeOfDay_text {hour minute second nano : Nat} {cs : List Char} {c : Char}
    (hhour : hour < 24) (hminute : minute < 60) (hsecond : second ≤ 60) (hnano : nano < 10 ^ 9)
    (hc : c.isDigit = false) (hpoint : c ≠ '.') :
    timeOfDay (padded 2 hour ++ ':' :: (padded 2 minute ++ ':' :: (padded 2 second ++
        (fractionText nano ++ c :: cs)))) =
      .ok ((3600 * hour + 60 * minute + (leapSecond second).1, (leapSecond second).2 + nano),
        c :: cs) := by
  have hshown : (leapSecond second).1 < 60 := by
    rw [leapSecond]
    split
    · decide
    · show second < 60
      omega
  have hmark (cs : List Char) : fixedMark (· == ':') (':' :: cs) = .ok cs := fixedMark_cons rfl cs
  rw [timeOfDay]
  simp only [pair_padded (show hour < 100 by omega), pair_padded (show minute < 100 by omega),
    pair_padded (show second < 100 by omega), hmark, optionalFraction_text hnano hc hpoint, ok_bind,
    hhour, hminute, hshown, and_self, if_true]
  rfl

end Strict

theorem length_le_octets (cs : List Char) : cs.length ≤ (octets (String.ofList cs)).length := by
  have hsize : (octets (String.ofList cs)).length = cs.utf8Encode.size := by
    rw [octets, String.toByteArray_ofList]
    exact Array.length_toList
  rw [hsize]
  clear hsize
  induction cs with
  | nil => exact Nat.zero_le _
  | cons c cs ih =>
      have hone : 0 < [c].utf8Encode.size := by
        rw [List.utf8Encode_singleton, List.size_toByteArray, String.length_utf8EncodeChar]
        exact Char.utf8Size_pos c
      rw [List.utf8Encode_cons, ByteArray.size_append, List.length_cons]
      omega

namespace Instant

/-- The instant lies in a year that is written with four digits and no sign. -/
def InEra (i : Instant) : Prop :=
  0 ≤ (Date.ofDayNumber i.day).year ∧ (Date.ofDayNumber i.day).year ≤ 9999

instance (i : Instant) : Decidable i.InEra := inferInstanceAs (Decidable (_ ∧ _))

theorem leapSecond_shownSecond (i : Instant) :
    Scan.leapSecond i.shownSecond = (i.second % 60, 10 ^ 9 * (i.nano / 10 ^ 9)) := by
  have hnano := i.nano_lt
  have hleap := i.leap
  rw [shownSecond]
  -- in a leap second the nanoseconds count on, and the second is written as 60
  by_cases h : 10 ^ 9 ≤ i.nano
  · have hsecond : i.second % 60 = 59 := hleap h
    have hone : i.nano / 10 ^ 9 = 1 := by omega
    rw [hsecond, hone]
    rfl
  · have hzero : i.nano / 10 ^ 9 = 0 := by omega
    have hne : i.second % 60 + 0 ≠ 60 := by omega
    rw [hzero, Scan.leapSecond, if_neg hne]
    rfl

theorem le_length_yearText (year : Int) : 4 ≤ (yearText year).length := by
  rw [yearText]
  split
  · exact le_length_padded 4 _
  · exact Nat.le_succ_of_le (le_length_padded 4 _)

theorem le_length_clockText (i : Instant) : 19 ≤ i.clockText.length := by
  have hyear := le_length_yearText (Date.ofDayNumber i.day).year
  have htwo := le_length_padded 2
  have hmonth := htwo (Date.ofDayNumber i.day).month
  have hday := htwo (Date.ofDayNumber i.day).day
  have hhour := htwo (i.second / 3600)
  have hminute := htwo (i.second / 60 % 60)
  have hsecond := htwo i.shownSecond
  simp only [clockText, Date.text, List.length_append, List.length_cons]
  omega

theorem shownSecond_le (i : Instant) : i.shownSecond ≤ 60 := by
  have hnano := i.nano_lt
  have hleap := i.leap
  rw [shownSecond]
  omega

/-- The hours, minutes and seconds that a clock shows make up the second of the day,
and what is shown of its nanoseconds makes up these. -/
theorem shown_parts (i : Instant) :
    (3600 * (i.second / 3600) + 60 * (i.second / 60 % 60) + (Scan.leapSecond i.shownSecond).1,
      (Scan.leapSecond i.shownSecond).2 + i.nano % 10 ^ 9) = (i.second, i.nano) := by
  have hsecond : 3600 * (i.second / 3600) + 60 * (i.second / 60 % 60) + i.second % 60 =
      i.second := by omega
  have hnano : 10 ^ 9 * (i.nano / 10 ^ 9) + i.nano % 10 ^ 9 = i.nano := by omega
  rw [leapSecond_shownSecond, hsecond, hnano]

theorem timeOfDay_clock (i : Instant) {c : Char} (hc : c.isDigit = false) (hpoint : c ≠ '.')
    (cs : List Char) :
    Strict.timeOfDay (padded 2 (i.second / 3600) ++ ':' :: (padded 2 (i.second / 60 % 60) ++
        ':' :: (padded 2 i.shownSecond ++ (fractionText (i.nano % 10 ^ 9) ++ c :: cs)))) =
      .ok ((i.second, i.nano), c :: cs) := by
  have hsecond := i.second_lt
  rw [Strict.timeOfDay_text (by omega) (by omega) i.shownSecond_le (by omega) hc hpoint,
    shown_parts]

/-- A clock that shows universal time shows the instant itself. -/
theorem ofClock?_self (i : Instant) :
    ofClock? (Date.ofDayNumber i.day) i.second i.nano 0 = some i := by
  have hsecond := i.second_lt
  have hday : i.day + ((i.second : Int) - 60 * 0) / 86400 = i.day := by omega
  have hsame : (((i.second : Int) - 60 * 0) % 86400).toNat = i.second := by omega
  rw [ofClock?, Date.dayNumber_ofDayNumber, hday, hsame, ofParts?_self]

/-- An instant of the era is read from the file as it was written. -/
theorem ofStrictText_offsetText {i : Instant} (h : i.InEra) :
    ofStrictText i.offsetText = .ok i := by
  have hlong : ¬(octets i.offsetText).length < 19 := by
    have hclock := le_length_clockText i
    have hall := length_le_octets (i.clockText ++ "+00:00".toList)
    rw [List.length_append] at hall
    rw [offsetText]
    omega
  have hdate (cs : List Char) :
      Strict.date ((Date.ofDayNumber i.day).text ++ cs) = .ok (Date.ofDayNumber i.day, cs) :=
    Strict.date_text (Date.isValid_ofDayNumber i.day) h.1 h.2 cs
  have hmark (cs : List Char) : Strict.fixedMark Scan.isSeparator ('T' :: cs) = .ok cs :=
    Strict.fixedMark_cons rfl cs
  have hoffset : "+00:00".toList = '+' :: ['0', '0', ':', '0', '0'] := rfl
  have hahead : Scan.offset (Scan.mark ':') ('+' :: ['0', '0', ':', '0', '0']) = .ok (0, []) := rfl
  have hclock := i.timeOfDay_clock (c := '+') rfl (by decide) ['0', '0', ':', '0', '0']
  rw [ofStrictText, if_neg hlong, offsetText, String.toList_ofList, clockText, hoffset]
  simp only [List.append_assoc, List.cons_append, hdate, hmark, hclock, hahead, ok_bind,
    ofClock?_self]
  rfl

end Instant

end OwnershipRegistry
