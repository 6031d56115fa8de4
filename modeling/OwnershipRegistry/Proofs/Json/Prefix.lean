import OwnershipRegistry.Proofs.Json.Nesting
import OwnershipRegistry.Proofs.Json.Tokens

/-!
Values at the front of a text. What the reader takes off the front of a text for a whole
value it takes off any text that begins so and does not go on with a numeral, as long as
the fuel lasts. A value that is not whole leaves nothing of its text.
-/

namespace OwnershipRegistry.Json

/-! ### Blanks -/

section Blanks

variable {blanks cs rest : List Char}

/-- Nothing but blanks. -/
def Blank (cs : List Char) : Prop := ∀ c ∈ cs, isSpace c = true

theorem exists_blanks (cs : List Char) : ∃ blanks, Blank blanks ∧ cs = blanks ++ skipSpace cs :=
  ⟨cs.takeWhile isSpace, fun _ hc => List.mem_takeWhile_imp hc,
    List.takeWhile_append_dropWhile.symm⟩

theorem Blank.skipSpace_append (h : Blank blanks) (rest : List Char) :
    skipSpace (blanks ++ rest) = skipSpace rest :=
  List.dropWhile_append_of_pos h

theorem skipSpace_cons {c : Char} (h : isSpace c = false) (cs : List Char) :
    skipSpace (c :: cs) = c :: cs := by
  rw [skipSpace, List.dropWhile_cons, h]
  rfl

theorem skipSpace_skipSpace (cs : List Char) : skipSpace (skipSpace cs) = skipSpace cs :=
  List.dropWhile_eq_self_iff.mpr fun h => List.dropWhile_get_zero_not _ cs h

theorem not_isSpace_of_skipSpace {c : Char} (h : skipSpace cs = c :: rest) : isSpace c = false := by
  have hhead := List.head?_dropWhile_not isSpace cs
  rw [← skipSpace, h] at hhead
  exact hhead

end Blanks

namespace Doc

variable {fuel : Nat} {d key : Doc} {ds : List Doc} {ms : List (Doc × Doc)}
  {space pre cs rest : List Char}

/-- What cannot go on with a value. -/
abbrev Halts (rest : List Char) : Prop := Stops ['.', 'e', 'E'] rest

/-- A text off which the reader takes a value, whatever follows it. -/
def Reads (pre : List Char) (d : Doc) : Prop :=
  ∀ fuel rest, 2 * pre.length ≤ fuel → Halts rest → readWith fuel (pre ++ rest) = (d, rest)

/-- A text off which the reader takes the items of an array with its end. -/
def ReadsItems (pre : List Char) (ds : List Doc) : Prop :=
  ∀ fuel rest, 2 * pre.length ≤ fuel + 1 → readItems fuel (pre ++ rest) = (ds, true, rest)

/-- A text off which the reader takes the members of an object with its end. -/
def ReadsMembers (pre : List Char) (ms : List (Doc × Doc)) : Prop :=
  ∀ fuel rest, 2 * pre.length ≤ fuel + 1 → readMembers fuel (pre ++ rest) = (ms, true, rest)

theorem readWith_skipSpace (fuel : Nat) (cs : List Char) :
    readWith fuel (skipSpace cs) = readWith fuel cs := by
  cases fuel with
  | zero => rfl
  | succ fuel =>
    rw [readWith, readWith, skipSpace_skipSpace]

theorem readItems_skipSpace (fuel : Nat) (cs : List Char) :
    readItems fuel (skipSpace cs) = readItems fuel cs := by
  cases fuel with
  | zero => rfl
  | succ fuel => rw [readItems, readItems, skipSpace_skipSpace]

theorem readMembers_skipSpace (fuel : Nat) (cs : List Char) :
    readMembers fuel (skipSpace cs) = readMembers fuel cs := by
  cases fuel with
  | zero => rfl
  | succ fuel => rw [readMembers, readMembers, readWith_skipSpace]

/-- A text that begins, and not with the end of an array. -/
def Opens (cs : List Char) : Prop := cs ≠ [] ∧ ∀ tail, cs ≠ ']' :: tail

/-- What is read as a whole value begins like one. -/
theorem opens_of_isWhole (hread : readWith fuel cs = (d, rest)) (hwhole : d.isWhole = true) :
    Opens (skipSpace cs) := by
  rw [← readWith_skipSpace] at hread
  refine ⟨fun hnil => ?_, fun tail hclose => ?_⟩
  · rw [hnil] at hread
    cases fuel <;> cases hread <;> cases hwhole
  · rw [hclose] at hread
    cases fuel <;> cases hread <;> cases hwhole

/-! ### Items and members -/

theorem readWith_bracket (fuel : Nat) (cs : List Char) :
    readWith (fuel + 1) ('[' :: cs) = match skipSpace cs with
      | ']' :: rest => (array [] true, rest)
      | rest =>
        let (ds, closed, rest) := readItems fuel rest
        (array ds closed, rest) := by
  rw [readWith, skipSpace_cons rfl]
  rfl

theorem readWith_brace (fuel : Nat) (cs : List Char) :
    readWith (fuel + 1) ('\x7b' :: cs) = match skipSpace cs with
      | '\x7d' :: rest => (object [] true, rest)
      | rest =>
        let (ms, closed, rest) := readMembers fuel rest
        (object ms closed, rest) := by
  rw [readWith, skipSpace_cons rfl]
  rfl

/-- Items are an item and the end, or an item and items. -/
theorem readItems_eq :
    readItems (fuel + 1) cs = (ds, true, rest) ↔
      Opens (skipSpace cs) ∧ ∃ d left, readWith fuel cs = (d, left) ∧
        (skipSpace left = ']' :: rest ∧ ds = [d] ∨ ∃ ds' mid, skipSpace left = ',' :: mid ∧
          readItems fuel mid = (ds', true, rest) ∧ ds = d :: ds') := by
  rw [readItems, ← readWith_skipSpace fuel cs]
  split
  · simp [Opens, *]
  · simp [Opens, *]
  · rename_i hne hclose
    have hopens : Opens (skipSpace cs) := ⟨hne, hclose⟩
    rcases readWith fuel (skipSpace cs) with ⟨d, left⟩
    constructor
    · intro h
      dsimp only at h
      split at h
      · rename_i hend
        cases h
        exact ⟨hopens, d, left, rfl, .inl ⟨hend, rfl⟩⟩
      · rename_i mid hcomma
        rcases hmore : readItems fuel mid with ⟨ds', closed, rest'⟩
        rw [hmore] at h
        cases h
        exact ⟨hopens, d, left, rfl, .inr ⟨ds', mid, hcomma, hmore, rfl⟩⟩
      · cases h
    · rintro ⟨-, d', left', heq, ⟨hend, rfl⟩ | ⟨ds', mid, hcomma, hmore, rfl⟩⟩ <;> cases heq
      · simp only [hend]
      · simp only [hcomma, hmore]

/-- Members are a member and the end, or a member and members. -/
theorem readMembers_eq :
    readMembers (fuel + 1) cs = (ms, true, rest) ↔ ∃ key d after left left',
      readWith fuel cs = (key, after) ∧ key.isKey = true ∧ skipSpace after = ':' :: left ∧
      readWith fuel left = (d, left') ∧
      (skipSpace left' = '\x7d' :: rest ∧ ms = [(key, d)] ∨
        ∃ ms' mid, skipSpace left' = ',' :: mid ∧ readMembers fuel mid = (ms', true, rest) ∧
          ms = (key, d) :: ms') := by
  rw [readMembers]
  rcases readWith fuel cs with ⟨key, after⟩
  constructor
  · intro h
    dsimp only at h
    split at h
    · rename_i left hkey hcolon
      rcases hread : readWith fuel left with ⟨d, left'⟩
      rw [hread] at h
      dsimp only at h
      split at h
      · rename_i hend
        cases h
        exact ⟨key, d, after, left, left', rfl, hkey, hcolon, hread, .inl ⟨hend, rfl⟩⟩
      · rename_i mid hcomma
        rcases hmore : readMembers fuel mid with ⟨ms', closed, rest'⟩
        rw [hmore] at h
        cases h
        exact ⟨key, d, after, left, left', rfl, hkey, hcolon, hread,
          .inr ⟨ms', mid, hcomma, hmore, rfl⟩⟩
      · cases h
    · cases h
  · rintro ⟨key', d, after', left, left', heq, hkey, hcolon, hread,
      ⟨hend, rfl⟩ | ⟨ms', mid, hcomma, hmore, rfl⟩⟩ <;> cases heq
    · simp only [hkey, hcolon, hread, hend]
    · simp only [hkey, hcolon, hread, hcomma, hmore]

/-! ### Texts of values -/

theorem halts_of_isSpace {c : Char} (hc : isSpace c = true) (rest : List Char) :
    Halts (c :: rest) := by
  simp only [isSpace, Bool.or_eq_true, beq_iff_eq] at hc
  rcases hc with ((rfl | rfl) | rfl) | rfl <;> exact stops_cons rfl (by decide)

theorem halts_of_delimiter {c : Char} (hc : c ∈ [':', ',', ']', '\x7d']) (rest : List Char) :
    Halts (c :: rest) := by
  simp only [List.mem_cons, List.not_mem_nil, or_false] at hc
  rcases hc with rfl | rfl | rfl | rfl <;> exact stops_cons rfl (by decide)

theorem halts_space_append (hspace : Blank space) {c : Char} (hc : c ∈ [':', ',', ']', '\x7d'])
    (rest : List Char) : Halts (space ++ c :: rest) := by
  cases space with
  | nil => exact halts_of_delimiter hc rest
  | cons b space => exact halts_of_isSpace (hspace b List.mem_cons_self) _

theorem skipSpace_space_append (hspace : Blank space) {c : Char} (hc : isSpace c = false)
    (rest : List Char) : skipSpace (space ++ c :: rest) = c :: rest := by
  rw [hspace.skipSpace_append, skipSpace_cons hc]

theorem exists_fuel_of_le {n : Nat} (h : n + 1 ≤ fuel) : ∃ f, fuel = f + 1 := ⟨fuel - 1, by omega⟩

theorem Reads.after_space (hspace : Blank space) (h : Reads pre d) : Reads (space ++ pre) d := by
  intro fuel rest hfuel hhalts
  rw [List.length_append] at hfuel
  rw [← readWith_skipSpace, List.append_assoc, hspace.skipSpace_append, readWith_skipSpace]
  exact h fuel rest (by omega) hhalts

theorem reads_string {s : Option String}
    (h : ∀ rest, Json.readString (pre ++ rest) = some (s, rest)) :
    Reads ('"' :: pre) (string s) := by
  intro fuel rest hfuel _
  obtain ⟨fuel, rfl⟩ := exists_fuel_of_le hfuel
  rw [List.cons_append, readWith, skipSpace_cons rfl]
  simp only [h]

theorem reads_word (word : String) {c : Char} {d : Doc}
    (h : ∀ fuel rest, readWith (fuel + 1) (c :: rest) = readWord word d rest) :
    Reads (c :: word.toList) d := by
  intro fuel rest hfuel _
  obtain ⟨fuel, rfl⟩ := exists_fuel_of_le hfuel
  rw [List.cons_append, h, readWord, afterWord?_eq_some.mpr rfl]

theorem reads_number {c : Char} {n : Numeral}
    (hc : ∀ fuel rest, readWith (fuel + 1) (c :: rest) =
      match Numeral.read (c :: rest) with
      | some (n, rest) => (number n, rest)
      | none => (broken, []))
    (h : ∀ rest, Halts rest → Numeral.read (c :: pre ++ rest) = some (n, rest)) :
    Reads (c :: pre) (number n) := by
  intro fuel rest hfuel hhalts
  obtain ⟨fuel, rfl⟩ := exists_fuel_of_le hfuel
  rw [List.cons_append, hc, ← List.cons_append, h rest hhalts]

theorem reads_emptyArray (hspace : Blank space) :
    Reads ('[' :: (space ++ [']'])) (array [] true) := by
  intro fuel rest hfuel _
  obtain ⟨fuel, rfl⟩ := exists_fuel_of_le hfuel
  have hend : skipSpace (space ++ [']'] ++ rest) = ']' :: rest := by
    rw [List.append_assoc]
    exact skipSpace_space_append hspace rfl rest
  rw [List.cons_append, readWith, skipSpace_cons rfl]
  simp only [hend]

theorem reads_emptyObject (hspace : Blank space) :
    Reads ('\x7b' :: (space ++ ['\x7d'])) (object [] true) := by
  intro fuel rest hfuel _
  obtain ⟨fuel, rfl⟩ := exists_fuel_of_le hfuel
  have hend : skipSpace (space ++ ['\x7d'] ++ rest) = '\x7d' :: rest := by
    rw [List.append_assoc]
    exact skipSpace_space_append hspace rfl rest
  rw [List.cons_append, readWith, skipSpace_cons rfl]
  simp only [hend]

theorem ReadsItems.reads (h : ReadsItems pre ds) : Reads ('[' :: pre) (array ds true) := by
  intro fuel rest hfuel _
  obtain ⟨fuel, rfl⟩ := exists_fuel_of_le hfuel
  rw [List.length_cons] at hfuel
  have hread := h fuel rest (by omega)
  rw [List.cons_append, readWith_bracket]
  split
  · rename_i heq
    rw [← readItems_skipSpace, heq] at hread
    cases fuel <;> cases hread
  · rw [readItems_skipSpace, hread]

theorem ReadsMembers.reads (h : ReadsMembers pre ms) : Reads ('\x7b' :: pre) (object ms true) := by
  intro fuel rest hfuel _
  obtain ⟨fuel, rfl⟩ := exists_fuel_of_le hfuel
  rw [List.length_cons] at hfuel
  have hread := h fuel rest (by omega)
  rw [List.cons_append, readWith_brace]
  split
  · rename_i heq
    rw [← readMembers_skipSpace, heq] at hread
    -- a closing brace is read as no key
    cases fuel with
    | zero => cases hread
    | succ fuel => cases fuel <;> cases hread
  · rw [readMembers_skipSpace, hread]

/-- A whole value off which a text goes on with blanks and a character that ends it. -/
theorem Reads.before (h : Reads pre d) (c : Char) (hc : c ∈ [':', ',', ']', '\x7d'])
    (hspace : Blank space) (hfuel : 2 * pre.length ≤ fuel) (rest : List Char) :
    readWith fuel (pre ++ (space ++ c :: rest)) = (d, space ++ c :: rest) ∧
      skipSpace (space ++ c :: rest) = c :: rest := by
  have hvisible : isSpace c = false := by
    simp only [List.mem_cons, List.not_mem_nil, or_false] at hc
    rcases hc with rfl | rfl | rfl | rfl <;> rfl
  exact ⟨h fuel _ hfuel (halts_space_append hspace hc rest),
    skipSpace_space_append hspace hvisible rest⟩

theorem ReadsItems.last (h : Reads pre d) (hwhole : d.isWhole = true) (hspace : Blank space) :
    ReadsItems (pre ++ (space ++ [']'])) [d] := by
  intro fuel rest hfuel
  simp only [List.length_append, List.length_singleton] at hfuel
  obtain ⟨fuel, rfl⟩ : ∃ f, fuel = f + 1 := ⟨fuel - 1, by omega⟩
  have hlength : 2 * pre.length ≤ fuel := by omega
  obtain ⟨hread, hend⟩ := h.before ']' (by decide) hspace hlength rest
  have hopens := opens_of_isWhole hread hwhole
  simp only [List.append_assoc, List.singleton_append]
  exact readItems_eq.mpr ⟨hopens, d, _, hread, .inl ⟨hend, rfl⟩⟩

theorem ReadsItems.next {pre' : List Char} (h : Reads pre d) (hwhole : d.isWhole = true)
    (hspace : Blank space) (hmore : ReadsItems pre' ds) :
    ReadsItems (pre ++ (space ++ ',' :: pre')) (d :: ds) := by
  intro fuel rest hfuel
  simp only [List.length_append, List.length_cons] at hfuel
  obtain ⟨fuel, rfl⟩ : ∃ f, fuel = f + 1 := ⟨fuel - 1, by omega⟩
  have hlength : 2 * pre.length ≤ fuel := by omega
  obtain ⟨hread, hcomma⟩ := h.before ',' (by decide) hspace hlength (pre' ++ rest)
  have hopens := opens_of_isWhole hread hwhole
  simp only [List.append_assoc, List.cons_append]
  exact readItems_eq.mpr ⟨hopens, d, _, hread,
    .inr ⟨ds, _, hcomma, hmore fuel rest (by omega), rfl⟩⟩

section Members

variable {space' kpre : List Char} (hkey : Reads kpre key) (hiskey : key.isKey = true)
  (hspace : Blank space) (h : Reads pre d) (hspace' : Blank space')

include hkey hiskey hspace h hspace'

theorem ReadsMembers.last :
    ReadsMembers (kpre ++ (space ++ ':' :: (pre ++ (space' ++ ['\x7d'])))) [(key, d)] := by
  intro fuel rest hfuel
  simp only [List.length_append, List.length_cons, List.length_nil] at hfuel
  obtain ⟨fuel, rfl⟩ : ∃ f, fuel = f + 1 := ⟨fuel - 1, by omega⟩
  have hlength : 2 * pre.length ≤ fuel := by omega
  have hkeyLength : 2 * kpre.length ≤ fuel := by omega
  obtain ⟨hread, hend⟩ := h.before '\x7d' (by decide) hspace' hlength rest
  obtain ⟨hreadKey, hcolon⟩ := hkey.before ':' (by decide) hspace hkeyLength
    (pre ++ (space' ++ '\x7d' :: rest))
  simp only [List.append_assoc, List.cons_append, List.nil_append]
  exact readMembers_eq.mpr ⟨key, d, _, _, _, hreadKey, hiskey, hcolon, hread, .inl ⟨hend, rfl⟩⟩

theorem ReadsMembers.next {pre' : List Char} (hmore : ReadsMembers pre' ms) :
    ReadsMembers (kpre ++ (space ++ ':' :: (pre ++ (space' ++ ',' :: pre')))) ((key, d) :: ms) := by
  intro fuel rest hfuel
  simp only [List.length_append, List.length_cons] at hfuel
  obtain ⟨fuel, rfl⟩ : ∃ f, fuel = f + 1 := ⟨fuel - 1, by omega⟩
  have hlength : 2 * pre.length ≤ fuel := by omega
  have hkeyLength : 2 * kpre.length ≤ fuel := by omega
  obtain ⟨hread, hcomma⟩ := h.before ',' (by decide) hspace' hlength (pre' ++ rest)
  obtain ⟨hreadKey, hcolon⟩ := hkey.before ':' (by decide) hspace hkeyLength
    (pre ++ (space' ++ ',' :: (pre' ++ rest)))
  simp only [List.append_assoc, List.cons_append]
  exact readMembers_eq.mpr ⟨key, d, _, _, _, hreadKey, hiskey, hcolon, hread,
    .inr ⟨ms, _, hcomma, hmore fuel rest (by omega), rfl⟩⟩

end Members

/-! ### Values at the front of a text -/

theorem exists_reads_of_skipSpace (h : ∃ pre, skipSpace cs = pre ++ rest ∧ Reads pre d) :
    ∃ pre, cs = pre ++ rest ∧ Reads pre d := by
  obtain ⟨pre, hcs, hreads⟩ := h
  obtain ⟨space, hspace, hsplit⟩ := exists_blanks cs
  exact ⟨space ++ pre, by rw [List.append_assoc, ← hcs, ← hsplit], hreads.after_space hspace⟩

theorem exists_reads_word {word : String} {c : Char} {d' : Doc}
    (hword : ∀ fuel rest, readWith (fuel + 1) (c :: rest) = readWord word d rest)
    (h : readWord word d cs = (d', rest)) (hwhole : d'.isWhole = true) :
    ∃ pre, c :: cs = pre ++ rest ∧ Reads pre d' := by
  unfold readWord at h
  split at h
  · rename_i hafter
    cases h
    obtain rfl := afterWord?_eq_some.mp hafter
    exact ⟨c :: word.toList, rfl, reads_word word hword⟩
  · cases h
    cases hwhole

/-- A whole value that is read with some fuel is taken off the front of the text. -/
def Cuts (fuel : Nat) : Prop :=
  ∀ {cs d rest}, readWith fuel cs = (d, rest) → d.isWhole = true →
    ∃ pre, cs = pre ++ rest ∧ Reads pre d

def CutsItems (fuel : Nat) : Prop :=
  ∀ {cs ds rest}, readItems fuel cs = (ds, true, rest) → areWhole ds = true →
    ∃ pre, cs = pre ++ rest ∧ ReadsItems pre ds

def CutsMembers (fuel : Nat) : Prop :=
  ∀ {cs ms rest}, readMembers fuel cs = (ms, true, rest) → membersAreWhole ms = true →
    ∃ pre, cs = pre ++ rest ∧ ReadsMembers pre ms

theorem exists_reads_bracket (hitems : CutsItems fuel)
    (h : readWith (fuel + 1) ('[' :: cs) = (d, rest)) (hwhole : d.isWhole = true) :
    ∃ pre, '[' :: cs = pre ++ rest ∧ Reads pre d := by
  rw [readWith_bracket] at h
  split at h
  · rename_i hend
    cases h
    obtain ⟨space, hspace, hcs⟩ := exists_blanks cs
    rw [hend] at hcs
    exact ⟨'[' :: (space ++ [']']), by simp [hcs], reads_emptyArray hspace⟩
  · rw [readItems_skipSpace] at h
    rcases hread : readItems fuel cs with ⟨ds, closed, rest'⟩
    rw [hread] at h
    cases h
    obtain ⟨rfl, hds⟩ : closed = true ∧ areWhole ds = true := by simpa [isWhole] using hwhole
    obtain ⟨pre, rfl, hreads⟩ := hitems hread hds
    exact ⟨'[' :: pre, rfl, hreads.reads⟩

theorem exists_reads_brace (hmembers : CutsMembers fuel)
    (h : readWith (fuel + 1) ('\x7b' :: cs) = (d, rest)) (hwhole : d.isWhole = true) :
    ∃ pre, '\x7b' :: cs = pre ++ rest ∧ Reads pre d := by
  rw [readWith_brace] at h
  split at h
  · rename_i hend
    cases h
    obtain ⟨space, hspace, hcs⟩ := exists_blanks cs
    rw [hend] at hcs
    exact ⟨'\x7b' :: (space ++ ['\x7d']), by simp [hcs], reads_emptyObject hspace⟩
  · rw [readMembers_skipSpace] at h
    rcases hread : readMembers fuel cs with ⟨ms, closed, rest'⟩
    rw [hread] at h
    cases h
    obtain ⟨rfl, hms⟩ : closed = true ∧ membersAreWhole ms = true := by
      simpa [isWhole] using hwhole
    obtain ⟨pre, rfl, hreads⟩ := hmembers hread hms
    exact ⟨'\x7b' :: pre, rfl, hreads.reads⟩

theorem exists_reads_string (h : readWith (fuel + 1) ('"' :: cs) = (d, rest))
    (hwhole : d.isWhole = true) : ∃ pre, '"' :: cs = pre ++ rest ∧ Reads pre d := by
  rw [readWith, skipSpace_cons rfl] at h
  simp only at h
  split at h
  · rename_i hread
    cases h
    obtain ⟨pre, rfl, hreads⟩ := readString_prefix hread
    exact ⟨'"' :: pre, rfl, reads_string hreads⟩
  · cases h
    cases hwhole

theorem exists_reads_number {c : Char}
    (hc : ∀ fuel rest, readWith (fuel + 1) (c :: rest) =
      match Numeral.read (c :: rest) with
      | some (n, rest) => (number n, rest)
      | none => (broken, []))
    (h : readWith (fuel + 1) (c :: cs) = (d, rest)) (hwhole : d.isWhole = true) :
    ∃ pre, c :: cs = pre ++ rest ∧ Reads pre d := by
  rw [hc] at h
  split at h
  · rename_i hread
    cases h
    obtain ⟨c', pre, hcs, hreads⟩ := Numeral.read_prefix hread
    obtain ⟨rfl, rfl⟩ := List.cons.inj hcs
    exact ⟨c :: pre, rfl, reads_number hc hreads⟩
  · cases h
    cases hwhole

/-- What begins with none of the other characters is a numeral. -/
theorem readWith_number {c : Char} (hspace : isSpace c = false)
    (hc : c ∉ ['[', '\x7b', '"', 'n', 't', 'f']) (fuel : Nat) (cs : List Char) :
    readWith (fuel + 1) (c :: cs) = match Numeral.read (c :: cs) with
      | some (n, rest) => (number n, rest)
      | none => (broken, []) := by
  rw [readWith, skipSpace_cons hspace]
  split
  case h_1 heq => cases heq
  case h_8 heq =>
    obtain ⟨rfl, rfl⟩ := List.cons.inj heq
    rfl
  all_goals
    rename_i heq
    obtain ⟨rfl, -⟩ := List.cons.inj heq
    exact absurd (by decide) hc

theorem cuts_succ (hitems : CutsItems fuel) (hmembers : CutsMembers fuel) : Cuts (fuel + 1) := by
  intro cs d rest h hwhole
  rw [← readWith_skipSpace] at h
  refine exists_reads_of_skipSpace ?_
  match hcs : skipSpace cs, h with
  | [], h =>
    cases h
    cases hwhole
  | c :: cs, h =>
    by_cases hc : c ∈ ['[', '\x7b', '"', 'n', 't', 'f']
    · simp only [List.mem_cons, List.not_mem_nil, or_false] at hc
      rcases hc with rfl | rfl | rfl | rfl | rfl | rfl
      · exact exists_reads_bracket hitems h hwhole
      · exact exists_reads_brace hmembers h hwhole
      · exact exists_reads_string h hwhole
      all_goals exact exists_reads_word (fun _ _ => rfl) h hwhole
    · exact exists_reads_number (readWith_number (not_isSpace_of_skipSpace hcs) hc) h hwhole

/-- What follows a value begins, after blanks, with a character that is left. -/
theorem exists_space_of_skipSpace {c : Char} (h : skipSpace cs = c :: rest) :
    ∃ space, Blank space ∧ cs = space ++ c :: rest := by
  obtain ⟨space, hspace, hcs⟩ := exists_blanks cs
  exact ⟨space, hspace, h ▸ hcs⟩

theorem cutsItems_succ (hvalue : Cuts fuel) (hitems : CutsItems fuel) : CutsItems (fuel + 1) := by
  intro cs ds rest h hwhole
  obtain ⟨-, d, left, hread, ⟨hend, rfl⟩ | ⟨ds, mid, hcomma, hmore, rfl⟩⟩ := readItems_eq.mp h
  · obtain ⟨hd, -⟩ : d.isWhole = true ∧ areWhole [] = true := by simpa [areWhole] using hwhole
    obtain ⟨pre, rfl, hreads⟩ := hvalue hread hd
    obtain ⟨space, hspace, rfl⟩ := exists_space_of_skipSpace hend
    exact ⟨_, by simp, ReadsItems.last hreads hd hspace⟩
  · obtain ⟨hd, hds⟩ : d.isWhole = true ∧ areWhole ds = true := by simpa [areWhole] using hwhole
    obtain ⟨pre, rfl, hreads⟩ := hvalue hread hd
    obtain ⟨space, hspace, rfl⟩ := exists_space_of_skipSpace hcomma
    obtain ⟨pre', rfl, hreads'⟩ := hitems hmore hds
    exact ⟨_, by simp, ReadsItems.next hreads hd hspace hreads'⟩

theorem isWhole_of_isKey (h : key.isKey = true) : key.isWhole = true := by
  cases key <;> first | rfl | cases h

theorem cutsMembers_succ (hvalue : Cuts fuel) (hmembers : CutsMembers fuel) :
    CutsMembers (fuel + 1) := by
  intro cs ms rest h hwhole
  obtain ⟨key, d, after, left, left', hreadKey, hkey, hcolon, hread, hcases⟩ := readMembers_eq.mp h
  obtain ⟨kpre, rfl, hkreads⟩ := hvalue hreadKey (isWhole_of_isKey hkey)
  obtain ⟨space, hspace, rfl⟩ := exists_space_of_skipSpace hcolon
  rcases hcases with ⟨hend, rfl⟩ | ⟨ms, mid, hcomma, hmore, rfl⟩
  · obtain ⟨-, hd⟩ : key.isKey = true ∧ d.isWhole = true := by
      simpa [membersAreWhole] using hwhole
    obtain ⟨pre, rfl, hreads⟩ := hvalue hread hd
    obtain ⟨space', hspace', rfl⟩ := exists_space_of_skipSpace hend
    exact ⟨_, by simp, ReadsMembers.last hkreads hkey hspace hreads hspace'⟩
  · obtain ⟨⟨-, hd⟩, hms⟩ : (key.isKey = true ∧ d.isWhole = true) ∧ membersAreWhole ms = true := by
      simpa [membersAreWhole] using hwhole
    obtain ⟨pre, rfl, hreads⟩ := hvalue hread hd
    obtain ⟨space', hspace', rfl⟩ := exists_space_of_skipSpace hcomma
    obtain ⟨pre', rfl, hreads'⟩ := hmembers hmore hms
    exact ⟨_, by simp, ReadsMembers.next hkreads hkey hspace hreads hspace' hreads'⟩

/-- What is taken off the front of a text is taken off the same front elsewhere. -/
theorem cuts (fuel : Nat) : Cuts fuel ∧ CutsItems fuel ∧ CutsMembers fuel := by
  induction fuel with
  | zero =>
    refine ⟨?_, ?_, ?_⟩
    · intro cs d rest h hwhole
      cases h
      cases hwhole
    · intro cs ds rest h
      cases h
    · intro cs ms rest h
      cases h
  | succ fuel ih =>
    obtain ⟨hvalue, hitems, hmembers⟩ := ih
    exact ⟨cuts_succ hitems hmembers, cutsItems_succ hvalue hitems,
      cutsMembers_succ hvalue hmembers⟩

/-! ### What is left of a text -/

theorem readItems_unclosed (h : readItems fuel cs = (ds, false, rest)) : rest = [] := by
  induction fuel generalizing cs ds rest with
  | zero =>
    cases h
    rfl
  | succ fuel ih =>
    rw [readItems] at h
    split at h
    · cases h
      rfl
    · cases h
      rfl
    · dsimp only at h
      split at h
      · cases h
      · rename_i mid _
        rcases hmore : readItems fuel mid with ⟨ds', closed, rest'⟩
        rw [hmore] at h
        cases h
        exact ih hmore
      · cases h
        rfl

theorem readMembers_unclosed (h : readMembers fuel cs = (ms, false, rest)) : rest = [] := by
  induction fuel generalizing cs ms rest with
  | zero =>
    cases h
    rfl
  | succ fuel ih =>
    rw [readMembers] at h
    dsimp only at h
    split at h
    · split at h
      · cases h
      · rename_i mid _
        rcases hmore : readMembers fuel mid with ⟨ms', closed, rest'⟩
        rw [hmore] at h
        cases h
        exact ih hmore
      · cases h
        rfl
    · cases h
      rfl

/-- A value that is not whole leaves nothing of its text. -/
def Spares (fuel : Nat) : Prop :=
  ∀ {cs d rest}, readWith fuel cs = (d, rest) → rest ≠ [] → d.isWhole = true

def SparesItems (fuel : Nat) : Prop :=
  ∀ {cs ds rest}, readItems fuel cs = (ds, true, rest) → areWhole ds = true

def SparesMembers (fuel : Nat) : Prop :=
  ∀ {cs ms rest}, readMembers fuel cs = (ms, true, rest) → membersAreWhole ms = true

theorem ne_nil_of_skipSpace {c : Char} (h : skipSpace cs = c :: rest) : cs ≠ [] := by
  rintro rfl
  cases h

theorem sparesItems_succ (hvalue : Spares fuel) (hitems : SparesItems fuel) :
    SparesItems (fuel + 1) := by
  intro cs ds rest h
  obtain ⟨-, d, left, hread, ⟨hend, rfl⟩ | ⟨ds, mid, hcomma, hmore, rfl⟩⟩ := readItems_eq.mp h
  · simp [areWhole, hvalue hread (ne_nil_of_skipSpace hend)]
  · simp [areWhole, hvalue hread (ne_nil_of_skipSpace hcomma), hitems hmore]

theorem sparesMembers_succ (hvalue : Spares fuel) (hmembers : SparesMembers fuel) :
    SparesMembers (fuel + 1) := by
  intro cs ms rest h
  obtain ⟨key, d, after, left, left', -, hkey, -, hread,
    ⟨hend, rfl⟩ | ⟨ms, mid, hcomma, hmore, rfl⟩⟩ := readMembers_eq.mp h
  · simp [membersAreWhole, hkey, hvalue hread (ne_nil_of_skipSpace hend)]
  · simp [membersAreWhole, hkey, hvalue hread (ne_nil_of_skipSpace hcomma), hmembers hmore]

theorem isWhole_items (hitems : SparesItems fuel)
    (h : (array (readItems fuel cs).1 (readItems fuel cs).2.1, (readItems fuel cs).2.2) = (d, rest))
    (hrest : rest ≠ []) : d.isWhole = true := by
  rcases hread : readItems fuel cs with ⟨ds, closed, rest'⟩
  rw [hread] at h
  cases h
  cases closed with
  | false => exact absurd (readItems_unclosed hread) hrest
  | true => exact hitems hread

theorem isWhole_members (hmembers : SparesMembers fuel)
    (h : (object (readMembers fuel cs).1 (readMembers fuel cs).2.1, (readMembers fuel cs).2.2) =
      (d, rest)) (hrest : rest ≠ []) : d.isWhole = true := by
  rcases hread : readMembers fuel cs with ⟨ms, closed, rest'⟩
  rw [hread] at h
  cases h
  cases closed with
  | false => exact absurd (readMembers_unclosed hread) hrest
  | true => exact hmembers hread

theorem isWhole_word {word : String} {d' : Doc} (hword : d'.isWhole = true)
    (h : readWord word d' cs = (d, rest)) (hrest : rest ≠ []) : d.isWhole = true := by
  unfold readWord at h
  split at h <;> cases h
  · exact hword
  · contradiction

theorem spares_succ (hitems : SparesItems fuel) (hmembers : SparesMembers fuel) :
    Spares (fuel + 1) := by
  intro cs d rest h hrest
  rw [readWith] at h
  split at h
  · cases h
    contradiction
  · split at h <;> cases h
    · rfl
    · contradiction
  · split at h
    · cases h
      rfl
    · exact isWhole_items hitems h hrest
  · split at h
    · cases h
      rfl
    · exact isWhole_members hmembers h hrest
  · exact isWhole_word rfl h hrest
  · exact isWhole_word rfl h hrest
  · exact isWhole_word rfl h hrest
  · split at h <;> cases h
    · rfl
    · contradiction

theorem spares (fuel : Nat) : Spares fuel ∧ SparesItems fuel ∧ SparesMembers fuel := by
  induction fuel with
  | zero =>
    refine ⟨?_, ?_, ?_⟩
    · intro cs d rest h hrest
      cases h
      contradiction
    · intro cs ds rest h
      cases h
    · intro cs ms rest h
      cases h
  | succ fuel ih =>
    obtain ⟨hvalue, hitems, hmembers⟩ := ih
    exact ⟨spares_succ hitems hmembers, sparesItems_succ hvalue hitems,
      sparesMembers_succ hvalue hmembers⟩

end Doc

end OwnershipRegistry.Json
