import OwnershipRegistry.Proofs.Config.Strictness
import OwnershipRegistry.Proofs.Config.Waits
import OwnershipRegistry.Proofs.Host.Reached

/-!
How long a store may wait for locks. No wait is longer than 2³¹ - 1 milliseconds: opening a
store that is to wait longer stops the program, as soon as the place of the store is found.
A configuration may ask for any wait that 64 bits count, and whoever asks for more has that
one, so where a configuration came from tells whether it can be opened at all.
-/

namespace OwnershipRegistry

open Wire

namespace StoreConfig

variable {c c' : StoreConfig} {given given' : List (String × Found)} {toml json : String} {ms : Nat}

/-! ### The wait that is asked for -/

/-- The wait that keys ask for, in milliseconds. -/
def waitOf (given : List (String × Found)) : Nat :=
  match given.lookup "busy_timeout_ms" with
  | some (.integer n) => n.toNat
  | _ => inMemory.busyTimeoutMs.toNat

/-- A configuration that a program comes by, and the wait that it was asked for, in
milliseconds. -/
inductive Obtained : StoreConfig → Nat → Prop
  | inMemory : Obtained .inMemory 5000
  | atPath (path : String) : Obtained (.atPath path) 5000
  | ofToml {toml : String} {given : List (String × Found)} {c : StoreConfig}
      (text : GivenInToml toml given) (read : ofToml toml = .ok c) : Obtained c (waitOf given)
  | load {content : List UInt8} {toml : String} {given : List (String × Found)} {c : StoreConfig}
      (decoded : Utf8.decode content = .ok toml) (text : GivenInToml toml given)
      (read : load (.octets content) = .ok c) : Obtained c (waitOf given)
  | ofJson {json : String} {given : List (String × Found)} {c : StoreConfig}
      (text : GivenInJson json given ∨ ListedInJson json given)
      (read : ofText form.ofDoc json = .ok c) : Obtained c (waitOf given)
  | withBusyTimeout {c : StoreConfig} {ms : Nat} (d : Duration) (before : Obtained c ms) :
      Obtained (c.withBusyTimeout d) d.millis
  | withProvisionedBacking {c : StoreConfig} {ms : Nat} (provision : Bool)
      (before : Obtained c ms) : Obtained (c.withProvisionedBacking provision) ms

/-- Other keys say nothing about the wait. -/
theorem busyTimeoutMs_override {key : String} (h : key ≠ "busy_timeout_ms") (found : Found) :
    (c.override (key, found)).busyTimeoutMs = c.busyTimeoutMs := by
  unfold override
  split <;> first | rfl | (cases ‹(key, found) = _›; exact absurd rfl h)

/-- What fits the key of the wait is a number of milliseconds that 64 bits count. -/
theorem exists_integer {found : Found} (h : objection? "busy_timeout_ms" found = none) :
    ∃ n : Int, found = .integer n ∧ (0 ≤ n ∧ n < 2 ^ 64) := by
  cases found with
  | integer n =>
    simp only [objection?, ite_eq_left_iff, reduceCtorEq, imp_false, not_not] at h
    exact ⟨n, rfl, h⟩
  | _ => cases h

/-- The wait is that of its key, if it is given. -/
theorem busyTimeoutMs_overrideAll (hdistinct : (given.map Prod.fst).Nodup)
    (h : c.overrideAll given = .ok c') :
    c'.busyTimeoutMs.toNat = match given.lookup "busy_timeout_ms" with
      | some (.integer n) => n.toNat
      | _ => c.busyTimeoutMs.toNat := by
  induction given generalizing c with
  | nil =>
    cases h
    rfl
  | cons g given ih =>
    obtain ⟨key, found⟩ := g
    obtain ⟨hother, hdistinct⟩ := List.nodup_cons.mp hdistinct
    cases hobjection : objection? key found with
    | some m =>
      rw [overrideAll_cons_of_objection hobjection] at h
      cases h
    | none =>
      rw [overrideAll_cons hobjection] at h
      rw [ih hdistinct h, List.lookup_cons]
      by_cases hkey : key = "busy_timeout_ms"
      · subst hkey
        obtain ⟨n, rfl, hn⟩ := exists_integer hobjection
        have hnone : given.lookup "busy_timeout_ms" = none := by
          rw [List.lookup_eq_none_iff]
          intro g hg
          rw [bne_iff_ne]
          rintro heq
          exact hother (List.mem_map.mpr ⟨g, hg, heq.symm⟩)
        rw [hnone]
        have hlt : n.toNat < UInt64.size := by
          rw [UInt64.size]
          omega
        simp only [override, beq_self_eq_true]
        exact UInt64.toNat_ofNat_of_lt hlt
      · have hne : ("busy_timeout_ms" == key) = false := beq_eq_false_iff_ne.mpr (Ne.symm hkey)
        rw [hne, busyTimeoutMs_override hkey]

/-- Values with their keys are told by the values, where the keys are the first of some. -/
theorem listed_unique {names : List String} {ds : List Json.Doc}
    (hfront : given.map Prod.fst <+: names) (hfront' : given'.map Prod.fst <+: names)
    (h : List.Forall₂ (fun g d => foundIn d = .ok g.2) given ds)
    (h' : List.Forall₂ (fun g d => foundIn d = .ok g.2) given' ds) : given = given' := by
  induction h generalizing names given' with
  | nil => cases h'; rfl
  | @cons g d given ds hg hgiven ih =>
    cases h' with
    | @cons g' _ given' _ hg' hgiven' =>
      cases names with
      | nil => exact absurd (List.prefix_nil.mp hfront) (List.cons_ne_nil _ _)
      | cons name names =>
        obtain ⟨hname, hfront⟩ := List.cons_prefix_cons.mp hfront
        obtain ⟨hname', hfront'⟩ := List.cons_prefix_cons.mp hfront'
        rw [hg] at hg'
        have heq : g = g' := Prod.ext (hname.trans hname'.symm) (Except.ok.inj hg')
        rw [heq, ih hfront hfront' hgiven']

/-- Whichever way a text gives what it gives, that is what is read off it. -/
theorem overrideAll_of_ofText (text : GivenInJson json given ∨ ListedInJson json given)
    (read : ofText form.ofDoc json = .ok c) :
    (given.map Prod.fst).Nodup ∧ overrideAll inMemory given = .ok c := by
  rcases text with ⟨ms, hspells, hgiven⟩ | ⟨ds, hspells, hfront, hgiven⟩
  · rw [ofText_of_spells hspells, ofDoc_object_eq hgiven] at read
    exact ofFields_eq_ok.mp read
  · obtain ⟨given', htext, hdistinct, hread⟩ := exists_givenInJson read
    have hsame {d : Json.Doc} (hd : Json.Spells json d) : d = .array ds true := by
      obtain ⟨rest, hd, -⟩ := hd
      obtain ⟨rest', hds, -⟩ := hspells
      exact (Prod.mk.inj (hd.symm.trans hds)).1
    rcases htext with ⟨ms, hspells', -⟩ | ⟨ds', hspells', hfront', hgiven'⟩
    · cases hsame hspells'
    · cases hsame hspells'
      rw [listed_unique hfront hfront' hgiven hgiven']
      exact ⟨hdistinct, hread⟩

/-- A configuration has the wait that it was asked for, or the greatest that it can have. -/
theorem Obtained.busyTimeoutMs (h : Obtained c ms) :
    c.busyTimeoutMs.toNat = min ms (2 ^ 64 - 1) := by
  have hread {given : List (String × Found)} {c : StoreConfig}
      (h : (given.map Prod.fst).Nodup ∧ overrideAll StoreConfig.inMemory given = .ok c) :
      c.busyTimeoutMs.toNat = min (waitOf given) (2 ^ 64 - 1) := by
    have hwait : c.busyTimeoutMs.toNat = waitOf given := busyTimeoutMs_overrideAll h.1 h.2
    have hlt := c.busyTimeoutMs.toNat_lt
    omega
  induction h with
  | inMemory | atPath => rfl
  | ofToml text read =>
    rw [ofToml_eq text] at read
    exact hread (ofFields_eq_ok.mp read)
  | load decoded text read =>
    rw [StoreConfig.load, decoded] at read
    have read := Except.mapError_eq_ok.mp read
    rw [ofToml_eq text] at read
    exact hread (ofFields_eq_ok.mp read)
  | ofJson text read => exact hread (overrideAll_of_ofText text read)
  | withBusyTimeout d before ih => exact busyTimeoutMs_withBusyTimeout _ d
  | withProvisionedBacking provision before ih => exact ih

/-- Every configuration can be come by, asking for the wait that it has. -/
theorem obtained (c : StoreConfig) : Obtained c c.busyTimeoutMs.toNat := by
  have hread : ofText form.ofDoc c.toDoc.text = .ok c :=
    ofText_text c.plain_toDoc (c.ofDoc_toDoc _)
  obtain ⟨given, htext, hdistinct, hgiven⟩ := exists_givenInJson hread
  have hwait : c.busyTimeoutMs.toNat = waitOf given := busyTimeoutMs_overrideAll hdistinct hgiven
  rw [hwait]
  exact .ofJson htext hread

end StoreConfig

namespace Host

open StoreConfig (Obtained)

variable {c : StoreConfig} {ms : Nat}

theorem longestTimeoutMs_lt_iff (hc : Obtained c ms) :
    longestTimeoutMs < c.busyTimeoutMs ↔ 2 ^ 31 - 1 < ms := by
  have hlongest : longestTimeoutMs.toNat = 2 ^ 31 - 1 := rfl
  have hwait := hc.busyTimeoutMs
  rw [UInt64.lt_iff_toNat_lt]
  omega

/-- What opening a store comes to: it stops the program, or returns whether it could be
opened. -/
theorem openStore_cases (h : Host) (now : Instant) (n : Nat) (c : StoreConfig) :
    ((∃ place, c.path.mapM (Place.ofPath h.file.path) = .ok place) ∧
        longestTimeoutMs < c.busyTimeoutMs ∧
        h.openStore now n c = ((h.close n).1, .error .timeoutTooLong, [])) ∨
      (¬((∃ place, c.path.mapM (Place.ofPath h.file.path) = .ok place) ∧
          longestTimeoutMs < c.busyTimeoutMs) ∧
        ∃ r : Except RegistryError Unit, (h.openStore now n c).2.1 = r.mapError .refused) := by
  have hclosed : (h.close n).1.file = h.file := rfl
  cases hplace : c.path.mapM (Place.ofPath h.file.path) with
  | error fault =>
    refine .inr ⟨fun ⟨⟨place, hfound⟩, _⟩ => (by cases hfound), .error (.ofFault fault), ?_⟩
    simp only [openStore, hclosed, hplace]
    rfl
  | ok place =>
    by_cases hlong : longestTimeoutMs < c.busyTimeoutMs
    · refine .inl ⟨⟨place, rfl⟩, hlong, ?_⟩
      simp only [openStore, hclosed, hplace, hlong, if_true]
    · refine .inr ⟨fun hboth => hlong hboth.2, ((h.close n).1.openAt now n c place).answer, ?_⟩
      simp only [openStore, hclosed, hplace, hlong, if_false]

/-- Every configuration can be come by, and whatever wait it was asked for, opening a store
with it stops the program just if the place of the store is found and that wait is longer
than 2³¹ - 1 milliseconds, whatever the files and the tables hold; then nothing is done but
that the store that had the number is closed. In all other cases the store is opened, or an
error of the registry tells why it is not. -/
theorem opening_stops_iff (c : StoreConfig) (h : Host) (now : Instant) (n : Nat) :
    Obtained c c.busyTimeoutMs.toNat ∧ ∀ {ms : Nat}, Obtained c ms →
      ((h.openStore now n c).2.1 = .error .timeoutTooLong ↔
        (∃ place, c.path.mapM (Place.ofPath h.file.path) = .ok place) ∧ 2 ^ 31 - 1 < ms) ∧
      ((h.openStore now n c).2.1 = .error .timeoutTooLong →
        h.openStore now n c = ((h.close n).1, .error .timeoutTooLong, [])) ∧
      ((∃ r : Except RegistryError Unit, (h.openStore now n c).2.1 = r.mapError .refused) ↔
        ¬((∃ place, c.path.mapM (Place.ofPath h.file.path) = .ok place) ∧ 2 ^ 31 - 1 < ms)) := by
  refine ⟨c.obtained, fun {ms} hc => ?_⟩
  have hrefused (r : Except RegistryError Unit) :
      r.mapError OpenFailure.refused ≠ .error .timeoutTooLong := by
    cases r <;> exact nofun
  rw [← longestTimeoutMs_lt_iff hc]
  rcases openStore_cases h now n c with ⟨hfound, hlong, hstops⟩ | ⟨hshort, r, hreturns⟩
  · have hanswer : (h.openStore now n c).2.1 = .error .timeoutTooLong := by rw [hstops]
    refine ⟨iff_of_true hanswer ⟨hfound, hlong⟩, fun _ => hstops, iff_of_false ?_ ?_⟩
    · rintro ⟨r, hr⟩
      exact hrefused r (hr.symm.trans hanswer)
    · exact fun hshort => hshort ⟨hfound, hlong⟩
  · have hanswer : (h.openStore now n c).2.1 ≠ .error .timeoutTooLong := by
      rw [hreturns]
      exact hrefused r
    exact ⟨iff_of_false hanswer hshort, fun h => absurd h hanswer, iff_of_true ⟨r, hreturns⟩ hshort⟩

/-- The shortest wait that stops the program, asked for by a duration, and the longest one
that does not, read off a text. -/
theorem opening_stops_iff_atBound :
    ((fresh "registry.db").openStore .epoch 0 ((StoreConfig.atPath "registry.db").withBusyTimeout
      ⟨2147483, 648000000, by decide⟩)).2.1 = .error .timeoutTooLong ∧
    ∃ c, StoreConfig.ofToml "busy_timeout_ms = 2147483647" = .ok c ∧
      ∃ r : Except RegistryError Unit,
        ((fresh "registry.db").openStore .epoch 0 c).2.1 = r.mapError .refused := by
  constructor
  · have hobtained := (Obtained.atPath "registry.db").withBusyTimeout
      ⟨2147483, 648000000, by decide⟩
    obtain ⟨-, hstops⟩ := opening_stops_iff ((StoreConfig.atPath "registry.db").withBusyTimeout
      ⟨2147483, 648000000, by decide⟩) (fresh "registry.db") .epoch 0
    exact (hstops hobtained).1.mpr ⟨⟨some .shared, rfl⟩, by decide⟩
  · have hread : StoreConfig.ofToml "busy_timeout_ms = 2147483647" =
        .ok { busyTimeoutMs := 2147483647 } := by rfl
    have hobtained := Obtained.ofToml
      ⟨[("busy_timeout_ms", .integer 2147483647)], by rfl, rfl⟩ hread
    obtain ⟨-, hstops⟩ :=
      opening_stops_iff { busyTimeoutMs := 2147483647 } (fresh "registry.db") .epoch 0
    refine ⟨_, hread, (hstops hobtained).2.2.mpr fun hlong => ?_⟩
    exact absurd hlong.2 (by decide)

end Host

end OwnershipRegistry
