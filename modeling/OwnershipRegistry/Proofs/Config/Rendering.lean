import OwnershipRegistry.Proofs.Json.Reader
import OwnershipRegistry.Toml.Config

/-!
Settings, written in TOML and in JSON. Texts, flags, integers of 64 bits, lists and
tables can be written in both languages. In TOML every setting has a line of its own, its
key between double quotes; in JSON the settings are the members of an object. The parsers
leave the keys and the values that were written.
-/

namespace OwnershipRegistry

open Wire

/-- The values that can be written in both languages. -/
inductive Wire.Found.Common : Found → Prop
  | string (s : String) : Common (.string s)
  | flag (b : Bool) : Common (.flag b)
  | integer (n : Int) (within : -2 ^ 63 ≤ n ∧ n < 2 ^ 63) : Common (.integer n)
  | sequence : Common .sequence
  | map : Common .map

/-! ### TOML -/

namespace Toml

/-- A character by its code point. -/
def escapedChar (c : Char) : List Char :=
  ['\\', 'U', '0', '0', hexDigit (c.toNat / 1048576 % 16), hexDigit (c.toNat / 65536 % 16),
    hexDigit (c.toNat / 4096 % 16), hexDigit (c.toNat / 256 % 16), hexDigit (c.toNat / 16 % 16),
    hexDigit (c.toNat % 16)]

def quote (s : String) : List Char := '"' :: (s.toList.flatMap escapedChar ++ ['"'])

theorem toNat_lt (c : Char) : c.toNat < 2 ^ 21 := by
  rcases c.valid with h | ⟨-, h⟩
  · exact h.trans (by decide)
  · exact h.trans (by decide)

theorem escapedText_escapedChar (c : Char) (rest : List Char) :
    escapedText (escapedChar c ++ rest) = cons? (some c) (escapedText rest) := by
  have hdigit (n : Nat) := hexValue?_hexDigit (n % 16) (Nat.mod_lt n (by decide))
  have hzero : hexValue? '0' = some 0 := by decide
  have hplaces : 16 * (16 * (16 * (16 * (16 * (c.toNat / 1048576 % 16) + c.toNat / 65536 % 16) +
      c.toNat / 4096 % 16) + c.toNat / 256 % 16) + c.toNat / 16 % 16) + c.toNat % 16 =
      c.toNat := by
    have hsmall := toNat_lt c
    omega
  have hvalid : c.toNat.isValidChar := c.valid
  simp [escapedChar, escapedText, codePoint?, hdigit, hzero, hplaces, hvalid, Char.ofNat_toNat]

theorem escapedText_quote (cs rest : List Char) :
    escapedText (cs.flatMap escapedChar ++ '"' :: rest) = some (cs, rest) := by
  induction cs with
  | nil => rfl
  | cons c cs ih =>
    rw [List.flatMap_cons, List.append_assoc, escapedText_escapedChar, ih]
    rfl

theorem keyPart_quote (s : String) (rest : List Char) :
    keyPart (quote s ++ rest) = some (s, rest) := by
  rw [quote, List.cons_append, List.append_assoc, keyPart]
  simp only [List.cons_append, List.nil_append, escapedText_quote, Option.map_some,
    String.ofList_toList]

theorem text_of_ne {cs : List Char} (h : ∀ rest, cs ≠ '"' :: '"' :: rest) :
    text ('"' :: cs) = (escapedText cs).map fun x => (String.ofList x.1, x.2) := by
  rw [text]
  · cases escapedText cs <;> rfl
  · exact h

/-- A text in double quotes that ends a line. -/
theorem text_quote (s : String) (rest : List Char) :
    text (quote s ++ '\n' :: rest) = some (s, '\n' :: rest) := by
  have hquote : quote s ++ '\n' :: rest =
      '"' :: (s.toList.flatMap escapedChar ++ '"' :: '\n' :: rest) := by simp [quote]
  rw [hquote, text_of_ne, escapedText_quote, Option.map_some, String.ofList_toList]
  -- neither an escaped character nor the end of a line is a quote
  intro rest' heq
  cases hs : s.toList <;> (rw [hs] at heq; cases heq)

/-! ### Values -/

theorem moreDigits_append {ds rest : List Char} (hds : ∀ c ∈ ds, c.isDigit = true)
    (hrest : moreDigits Char.isDigit rest = ([], rest)) :
    moreDigits Char.isDigit (ds ++ rest) = (ds, rest) := by
  induction ds with
  | nil => exact hrest
  | cons d ds ih =>
    obtain ⟨hd, hds⟩ := List.forall_mem_cons.mp hds
    have hne : d ≠ '_' := by
      rintro rfl
      cases hd
    rw [List.cons_append, moreDigits, if_pos hd, ih hds]
    intro c rest' heq
    exact absurd heq hne

theorem wholeDigits_digits (n : Nat) (rest : List Char) :
    wholeDigits (digits n ++ '\n' :: rest) = some (digits n, '\n' :: rest) := by
  rcases Nat.eq_zero_or_pos n with rfl | hpos
  · rfl
  · obtain ⟨d, ds, hds⟩ := List.exists_cons_of_ne_nil (digits_ne_nil n)
    have hhead := head?_digits hpos
    have hdigits := isDigit_of_mem_digits n
    rw [hds] at hhead hdigits ⊢
    obtain ⟨hd, hdigits⟩ := List.forall_mem_cons.mp hdigits
    have hmore : moreDigits Char.isDigit (ds ++ '\n' :: rest) = (ds, '\n' :: rest) :=
      moreDigits_append hdigits rfl
    rw [List.cons_append, wholeDigits, someDigits, if_pos hd, hmore]
    intro rest' heq
    obtain ⟨rfl, -⟩ := List.cons.inj heq
    exact hhead rfl

/-- The sign of an integer. -/
def signOf (negative : Bool) : Char := if negative then '-' else '+'

section Signs

variable {negative : Bool} {cs rest : List Char}

theorem sign_signOf : sign (signOf negative :: cs) = (negative, cs) := by cases negative <;> rfl

theorem moment?_signOf : moment? (signOf negative :: cs) = none := by cases negative <;> rfl

theorem integer_signOf : integer (signOf negative :: cs) = do
    let (ds, rest) ← wholeDigits cs
    return (← within64 (if negative then -(ofDigits ds : Int) else ofDigits ds), rest) := by
  cases negative <;> rfl

theorem decimalFloat_signOf {ds : List Char} (h : wholeDigits cs = some (ds, '\n' :: rest)) :
    decimalFloat (signOf negative :: cs) = none := by
  have hfraction : fraction? ('\n' :: rest) = some (none, '\n' :: rest) := rfl
  have hexponent : exponent? ('\n' :: rest) = some (none, '\n' :: rest) := rfl
  simp only [decimalFloat, sign_signOf, h, Option.bind_eq_bind, Option.bind_some, hfraction,
    hexponent]
  rfl

theorem specialFloat_signOf {d : Char} (hd : d.isDigit = true) :
    specialFloat (signOf negative :: d :: cs) = none := by
  rw [specialFloat, sign_signOf]
  split
  case h_1 heq | h_2 heq =>
    obtain ⟨-, heq⟩ := Prod.mk.inj heq
    obtain ⟨rfl, -⟩ := List.cons.inj heq
    cases hd
  case h_3 => rfl

end Signs

/-- An integer with its sign. -/
def signed (n : Int) : List Char := signOf (n < 0) :: digits n.natAbs

theorem numberOrMoment_signed {n : Int} (h : -2 ^ 63 ≤ n ∧ n < 2 ^ 63) (rest : List Char) :
    numberOrMoment (signed n ++ '\n' :: rest) = some (.integer n, '\n' :: rest) := by
  have hwhole := wholeDigits_digits n.natAbs rest
  have hvalue : (if decide (n < 0) then -(ofDigits (digits n.natAbs) : Int)
      else ofDigits (digits n.natAbs)) = n := by
    rw [ofDigits_digits]
    split_ifs with hn <;> (simp only [decide_eq_true_eq] at hn; omega)
  have hspecial : specialFloat (signOf (n < 0) :: (digits n.natAbs ++ '\n' :: rest)) = none := by
    obtain ⟨d, ds, hds⟩ := List.exists_cons_of_ne_nil (digits_ne_nil n.natAbs)
    have hdigit : d.isDigit = true := isDigit_of_mem_digits _ d (hds ▸ List.mem_cons_self)
    rw [hds, List.cons_append, specialFloat_signOf hdigit]
  rw [signed, List.cons_append, numberOrMoment, moment?_signOf, float, decimalFloat_signOf hwhole,
    hspecial, integer_signOf, hwhole]
  simp only [Option.bind_eq_bind, Option.bind_some, hvalue, within64, if_pos h, Option.or_none]
  rfl

/-- A value in TOML. -/
def valueText : Found → List Char
  | .string s => quote s
  | .flag b => (if b then "true" else "false").toList
  | .integer n => signed n
  | .sequence => ['[', ']']
  | .map => ['\x7b', '\x7d']
  | .null | .float _ => []

/-- What is written is what is found. -/
theorem exists_value {found : Found} (h : found.Common) : ∃ v : Value, v.found = found ∧
    ∀ rest, value (valueText found ++ '\n' :: rest) = some (v, '\n' :: rest) := by
  cases h with
  | string s =>
    refine ⟨.text s, rfl, fun rest => ?_⟩
    have hread := text_quote s rest
    rw [valueText, quote, List.cons_append] at *
    rw [value, greatestDepth, valueWithin, hread]
    rfl
  | flag b =>
    refine ⟨.boolean b, rfl, fun rest => ?_⟩
    cases b <;> rfl
  | integer n hn =>
    refine ⟨.integer n, rfl, fun rest => ?_⟩
    have hread := numberOrMoment_signed hn rest
    rw [valueText, signed, List.cons_append, signOf] at *
    rw [value, greatestDepth]
    split_ifs at * with hneg <;> exact hread
  | sequence => exact ⟨.array [], rfl, fun _ => rfl⟩
  | map => exact ⟨.inline [], rfl, fun _ => rfl⟩

/-! ### Lines -/

/-- A line for a setting. -/
def settingLine (g : String × Found) : List Char := quote g.1 ++ '=' :: (valueText g.2 ++ ['\n'])

def settingText (given : List (String × Found)) : String := .ofList (given.flatMap settingLine)

theorem key_quote (s : String) (rest : List Char) :
    key (quote s ++ '=' :: rest) = some (([], s), '=' :: rest) := by
  have hpart : keyPart (skipSpace (quote s ++ '=' :: rest)) = some (s, '=' :: rest) :=
    keyPart_quote s ('=' :: rest)
  have hmark : skipSpace ('=' :: rest) = '=' :: rest := rfl
  have hparts : keyParts greatestDepth (quote s ++ '=' :: rest) = some ([s], '=' :: rest) := by
    rw [greatestDepth, keyParts]
    simp only [hpart, hmark, Option.bind_eq_bind, Option.bind_some]
    rfl
  rw [key, hparts]
  rfl

theorem skipSpace_valueText {found : Found} (h : found.Common) (rest : List Char) :
    skipSpace (valueText found ++ rest) = valueText found ++ rest := by
  cases h with
  | flag b => cases b <;> rfl
  | integer n hn =>
    rw [valueText, signed, signOf]
    split_ifs <;> rfl
  | _ => rfl

theorem exists_quote (g : String × Found) (rest : List Char) :
    ∃ cs, settingLine g ++ rest = '"' :: cs := ⟨_, rfl⟩

/-- A line is read as its setting. -/
theorem exists_line {g : String × Found} (h : g.2.Common) : ∃ v : Value, v.found = g.2 ∧
    ∀ rest, line (settingLine g ++ rest) = some (.setting ⟨[], g.1, v⟩, '\n' :: rest) := by
  obtain ⟨v, hv, hvalue⟩ := exists_value h
  refine ⟨v, hv, fun rest => ?_⟩
  have hline : settingLine g ++ rest =
      quote g.1 ++ '=' :: (valueText g.2 ++ '\n' :: rest) := by simp [settingLine]
  have hsetting : setting value (settingLine g ++ rest) = some (⟨[], g.1, v⟩, '\n' :: rest) := by
    rw [hline, setting, key_quote]
    simp only [Option.bind_eq_bind, Option.bind_some, mark?, if_true, skipSpace_valueText h, hvalue]
    rfl
  obtain ⟨cs, hcs⟩ := exists_quote g rest
  rw [hcs] at hsetting ⊢
  rw [line, hsetting]
  · rfl
  · exact nofun
  · exact nofun

/-- The settings of lines, in order. -/
theorem exists_lines {given : List (String × Found)} (h : ∀ g ∈ given, g.2.Common) {fuel : Nat}
    (hfuel : given.length < fuel) : ∃ es : Entries, (es.map fun e => (e.1, e.2.found)) = given ∧
      lines fuel (given.flatMap settingLine) =
        some (es.map fun e => .setting ⟨[], e.1, e.2⟩) := by
  induction given generalizing fuel with
  | nil =>
    obtain ⟨fuel, rfl⟩ := Nat.exists_eq_succ_of_ne_zero (by omega : fuel ≠ 0)
    exact ⟨[], rfl, rfl⟩
  | cons g given ih =>
    obtain ⟨hg, hgiven⟩ := List.forall_mem_cons.mp h
    rw [List.length_cons] at hfuel
    obtain ⟨fuel, rfl⟩ := Nat.exists_eq_succ_of_ne_zero (by omega : fuel ≠ 0)
    obtain ⟨v, hv, hline⟩ := exists_line hg
    obtain ⟨es, hes, hlines⟩ := ih hgiven (by omega : given.length < fuel)
    have hread := hline (given.flatMap settingLine)
    refine ⟨(g.1, v) :: es, by rw [List.map_cons, hes, hv], ?_⟩
    have hend : endLine? ('\n' :: given.flatMap settingLine) =
        some (given.flatMap settingLine) := rfl
    have hstep : lines (fuel + 1) (settingLine g ++ given.flatMap settingLine) =
        (lines fuel (given.flatMap settingLine)).map (.setting ⟨[], g.1, v⟩ :: ·) := by
      obtain ⟨cs, hcs⟩ := exists_quote g (given.flatMap settingLine)
      rw [hcs] at hread ⊢
      have hskip : skipSpace ('"' :: cs) = '"' :: cs := rfl
      have hsetting : ¬('"' = '#' ∨ '"' = '\n' ∨ '"' = '\r') := by decide
      rw [lines, hskip]
      simp only [if_neg hsetting, hread, hend, Option.bind_eq_bind, Option.bind_some]
      cases lines fuel (given.flatMap settingLine) <;> rfl
    rw [List.flatMap_cons, hstep, hlines]
    rfl

/-- Settings of distinct keys are set in their order. -/
theorem setAll_eq {before es : Entries} (h : ((before ++ es).map Prod.fst).Nodup) :
    before.setAll (es.map fun e => ⟨[], e.1, e.2⟩) = some (before ++ es) := by
  induction es generalizing before with
  | nil => rw [List.append_nil]; rfl
  | cons e es ih =>
    have happend : before ++ e :: es = before ++ [e] ++ es := by simp
    have hnew : (List.lookup e.1 before).isSome = false := by
      rw [List.map_append, List.map_cons] at h
      have hdisjoint := (List.nodup_append.mp h).2.2
      rw [Option.isSome_eq_false_iff, Option.isNone_iff_eq_none, List.lookup_eq_none_iff]
      intro e' he'
      rw [bne_iff_ne]
      exact (hdisjoint e'.1 (List.mem_map_of_mem he') e.1 List.mem_cons_self).symm
    have hset : before.set e.1 e.2 [] = some (before ++ [e]) := by
      rw [Entries.set, hnew]
      rfl
    rw [happend] at h ⊢
    rw [← ih h, Entries.setAll, List.map_cons, List.foldlM_cons, hset]
    rfl

theorem leadingSettings_eq (ss : List Setting) :
    leadingSettings (ss.map .setting) = (ss, []) := by
  induction ss with
  | nil => rfl
  | cons s ss ih => rw [List.map_cons, leadingSettings, ih]

theorem ofLines_settings (ss : List Setting) (es : Entries) :
    Entries.ofLines (ss.map .setting) es = some es := by
  induction ss with
  | nil => rfl
  | cons s ss ih => rw [List.map_cons, Entries.ofLines, ih]

theorem length_le_flatMap (given : List (String × Found)) :
    given.length ≤ (given.flatMap settingLine).length := by
  induction given with
  | nil => exact Nat.le_refl 0
  | cons g given ih =>
    have hline : 1 ≤ (settingLine g).length := by
      simp only [settingLine, List.length_append, List.length_cons]
      omega
    rw [List.flatMap_cons, List.length_append, List.length_cons]
    omega

/-- The entries of a text of settings are the settings. -/
theorem exists_entries {given : List (String × Found)} (hdistinct : (given.map Prod.fst).Nodup)
    (h : ∀ g ∈ given, g.2.Common) : ∃ es : Entries, given = es.map (fun e => (e.1, e.2.found)) ∧
      entries? (settingText given) = some es := by
  obtain ⟨es, hes, hlines⟩ := exists_lines h (Nat.lt_succ_of_le (length_le_flatMap given))
  refine ⟨es, hes.symm, ?_⟩
  have hkeys : (([] ++ es).map Prod.fst).Nodup := by
    rw [← hes, List.map_map] at hdistinct
    exact hdistinct
  -- no text of settings begins with a byte order mark
  have htext : entries? (settingText given) =
      (lines ((given.flatMap settingLine).length + 1) (given.flatMap settingLine)).bind fun ls =>
        (Entries.setAll [] (leadingSettings ls).1).bind (Entries.ofLines ls) := by
    rw [entries?, settingText, String.toList_ofList]
    cases given with
    | nil => rfl
    | cons g given =>
      obtain ⟨cs, hcs⟩ := exists_quote g (given.flatMap settingLine)
      rw [List.flatMap_cons, hcs]
      rfl
  have hsettings : es.map (fun e => Line.setting ⟨[], e.1, e.2⟩) =
      (es.map fun e => (⟨[], e.1, e.2⟩ : Setting)).map .setting := by
    rw [List.map_map]
    rfl
  rw [htext, hlines, hsettings]
  simp only [Option.bind_some, leadingSettings_eq, setAll_eq hkeys, ofLines_settings,
    List.nil_append]

end Toml

/-! ### JSON -/

namespace Json

/-- An integer without needless signs. -/
def Numeral.ofInt (n : Int) : Numeral := ⟨n < 0, digits n.natAbs, none, none⟩

theorem Numeral.value?_ofInt {n : Int} (h : -2 ^ 63 ≤ n ∧ n < 2 ^ 63) :
    (ofInt n).value? = some (.integer n) := by
  simp only [value?, ofInt, ofDigits_digits, Option.isNone_none, decide_eq_true_eq, true_and]
  have hwithin : if n < 0 then 0 < n.natAbs ∧ n.natAbs ≤ 2 ^ 63 else n.natAbs < 2 ^ 64 := by
    split_ifs <;> omega
  have hvalue : (if n < 0 then -(n.natAbs : Int) else n.natAbs) = n := by
    split_ifs <;> omega
  rw [if_pos hwithin, hvalue]

namespace Doc

theorem reads_negative (n : Nat) :
    Reads ('-' :: digits n) (.number ⟨true, digits n, none, none⟩) := by
  have hspace : isSpace '-' = false := rfl
  exact reads_number (readWith_number hspace (by decide)) fun rest h =>
    Numeral.readParts_digits true n h

def ofFound : Found → Doc
  | .string s => .ofString s
  | .flag b => .bool b
  | .integer n => .number (.ofInt n)
  | .sequence => .ofList []
  | .map => .record []
  | .null | .float _ => .null

variable {found : Found}

theorem isWhole_ofFound (h : found.Common) : (ofFound found).isWhole = true := by
  cases h <;> rfl

theorem foundIn_ofFound (h : found.Common) : foundIn (ofFound found) = .ok found := by
  cases h with
  | integer n hn => simp only [ofFound, foundIn, Numeral.value?_ofInt hn]
  | _ => rfl

theorem reads_ofFound (h : found.Common) : Reads (ofFound found).render (ofFound found) := by
  cases h with
  | string s => exact reads_quote s
  | flag b => exact (Plain.bool b).reads
  | integer n hn =>
    by_cases hneg : n < 0
    · have hint : Numeral.ofInt n = ⟨true, digits n.natAbs, none, none⟩ := by
        simp only [Numeral.ofInt, hneg, decide_true]
      have htext : (Doc.number ⟨true, digits n.natAbs, none, none⟩).render =
          '-' :: digits n.natAbs := by simp [render, Numeral.text]
      rw [ofFound, hint, htext]
      exact reads_negative n.natAbs
    · have hint : Numeral.ofInt n = .ofNat n.natAbs := by
        simp only [Numeral.ofInt, hneg, decide_false, Numeral.ofNat]
      rw [ofFound, hint]
      exact reads_natural n.natAbs
  | sequence => exact (Plain.array [] (List.forall_mem_nil _)).reads
  | map => exact (Plain.record [] (List.forall_mem_nil _)).reads

/-- The object of settings. -/
def ofSettings (given : List (String × Found)) : Doc :=
  .record (given.map fun g => (g.1, ofFound g.2))

theorem spells_ofSettings {given : List (String × Found)} (h : ∀ g ∈ given, g.2.Common) :
    Spells (ofSettings given).text (ofSettings given) := by
  refine spells_text ?_
  rw [ofSettings, ← text_objectText]
  refine reads_objectText (spellsMember_partsOf fun m hm => ?_)
  obtain ⟨g, hg, rfl⟩ := List.mem_map.mp hm
  exact ⟨reads_ofFound (h g hg), isWhole_ofFound (h g hg)⟩

end Doc

end Json

end OwnershipRegistry
