import Mathlib.Data.List.Induction
import Mathlib.Order.Monotone.Basic
import OwnershipRegistry.Config

/-!
How long a configuration waits. A duration is kept as whole milliseconds that 64 bits
count. What is kept is the longest of all waits that can be kept and are no longer than the
duration, and the rest follows from that: no wait is lengthened, a longer duration never
makes a shorter wait, and a wait that is given back is kept as it is. The arithmetic of words
comes to the same, as no step of it leaves its words. What the calls that build a
configuration leave is told by the last call of each kind.
-/

namespace OwnershipRegistry

/-! ### Words -/

namespace Word

variable {n : Nat} {x y : BitVec n}

/-- The product of two words, unless it does not fit in one. -/
def product? (x y : BitVec n) : Option (BitVec n) :=
  if x.umulOverflow y then none else some (x * y)

/-- The sum of two words, unless it does not fit in one. -/
def sum? (x y : BitVec n) : Option (BitVec n) :=
  if x.uaddOverflow y then none else some (x + y)

/-- The number in a word of 64 bits, and the greatest number there where it does not fit. -/
def narrowed (w : BitVec 128) : UInt64 :=
  if w.toNat < 2 ^ 64 then .ofNat w.toNat else .ofNat (2 ^ 64 - 1)

theorem exists_product (h : x.toNat * y.toNat < 2 ^ n) :
    ∃ z, product? x y = some z ∧ z.toNat = x.toNat * y.toNat := by
  have hfits : x.umulOverflow y = false := decide_eq_false (Nat.not_le.mpr h)
  refine ⟨x * y, ?_, ?_⟩
  · rw [product?, hfits]
    rfl
  · exact BitVec.toNat_mul_of_lt h

theorem exists_sum (h : x.toNat + y.toNat < 2 ^ n) :
    ∃ z, sum? x y = some z ∧ z.toNat = x.toNat + y.toNat := by
  have hfits : x.uaddOverflow y = false := decide_eq_false (Nat.not_le.mpr h)
  refine ⟨x + y, ?_, ?_⟩
  · rw [sum?, hfits]
    rfl
  · exact BitVec.toNat_add_of_lt h

theorem toNat_narrowed (w : BitVec 128) : (narrowed w).toNat = min w.toNat (2 ^ 64 - 1) := by
  by_cases h : w.toNat < 2 ^ 64
  · rw [narrowed, if_pos h, UInt64.toNat_ofNat_of_lt' h]
    omega
  · rw [narrowed, if_neg h, UInt64.toNat_ofNat_of_lt' (by decide)]
    omega

end Word

namespace Duration

variable {d e : Duration} {ms ms' : UInt64}

/-! ### Lengths -/

/-- The length in nanoseconds. -/
def toNanos (d : Duration) : Nat := 10 ^ 9 * d.seconds.toNat + d.nanos

theorem toNanos_injective : Function.Injective toNanos := by
  rintro ⟨s, n, hn⟩ ⟨s', n', hn'⟩ h
  simp only [toNanos] at h
  have hseconds : s = s' := UInt64.toNat_inj.mp (by omega)
  have hnanos : n = n' := by omega
  subst hseconds hnanos
  rfl

/-- Durations are compared by their lengths. -/
instance : PartialOrder Duration := PartialOrder.lift toNanos toNanos_injective

theorem le_iff_toNanos_le : d ≤ e ↔ d.toNanos ≤ e.toNanos := Iff.rfl

theorem millis_eq (d : Duration) : d.millis = d.toNanos / 10 ^ 6 := by
  simp only [millis, toNanos]
  omega

@[simp] theorem toNanos_ofMillis (ms : UInt64) : (ofMillis ms).toNanos = 10 ^ 6 * ms.toNat := by
  have hthousand : (1000 : UInt64).toNat = 1000 := rfl
  simp only [toNanos, ofMillis, UInt64.toNat_div, UInt64.toNat_mod, hthousand]
  omega

@[simp] theorem ofMillis_le_ofMillis : ofMillis ms ≤ ofMillis ms' ↔ ms ≤ ms' := by
  rw [le_iff_toNanos_le, toNanos_ofMillis, toNanos_ofMillis, UInt64.le_iff_toNat_le]
  omega

/-! ### The arithmetic of words -/

/-- The whole milliseconds, reckoned in words of 128 bits. -/
def wideMillis? (d : Duration) : Option (BitVec 128) := do
  let whole ← Word.product? 1000 (d.seconds.toBitVec.setWidth 128)
  Word.sum? whole (.ofNat 128 (d.nanos / 10 ^ 6))

/-- The nanoseconds beyond the whole seconds of some milliseconds, reckoned in words of 32
bits. -/
def narrowNanos? (ms : UInt64) : Option (BitVec 32) :=
  Word.product? (.ofNat 32 (ms % 1000).toNat) 1000000

/-- Seconds that 64 bits count make fewer than 2⁷⁴ milliseconds. -/
theorem exists_wideMillis (d : Duration) :
    ∃ w, d.wideMillis? = some w ∧ w.toNat = d.millis := by
  have hlt := d.seconds.toNat_lt
  have hnanos := d.nanos_lt
  have hseconds : (d.seconds.toBitVec.setWidth 128).toNat = d.seconds.toNat :=
    BitVec.toNat_setWidth_of_le (by decide)
  have hthousand : (1000 : BitVec 128).toNat = 1000 := rfl
  have hrest : (BitVec.ofNat 128 (d.nanos / 10 ^ 6)).toNat = d.nanos / 10 ^ 6 :=
    (BitVec.toNat_ofNat _ _).trans (Nat.mod_eq_of_lt (by omega))
  obtain ⟨whole, hwhole, hproduct⟩ :=
    Word.exists_product (x := (1000 : BitVec 128)) (y := d.seconds.toBitVec.setWidth 128)
      (by rw [hseconds, hthousand]; omega)
  rw [hthousand, hseconds] at hproduct
  obtain ⟨w, hw, hsum⟩ :=
    Word.exists_sum (x := whole) (y := .ofNat 128 (d.nanos / 10 ^ 6))
      (by rw [hproduct, hrest]; omega)
  refine ⟨w, ?_, ?_⟩
  · rw [wideMillis?, hwhole]
    exact hw
  · rw [hsum, hproduct, hrest, millis]

theorem exists_narrowNanos (ms : UInt64) :
    ∃ w, narrowNanos? ms = some w ∧ w.toNat = (ofMillis ms).nanos := by
  have hthousand : (1000 : UInt64).toNat = 1000 := rfl
  have hmillion : (1000000 : BitVec 32).toNat = 10 ^ 6 := rfl
  have hlt : (ms % 1000).toNat < 1000 := by
    rw [UInt64.toNat_mod, hthousand]
    exact Nat.mod_lt _ (by decide)
  have hrest : (BitVec.ofNat 32 (ms % 1000).toNat).toNat = (ms % 1000).toNat :=
    (BitVec.toNat_ofNat _ _).trans (Nat.mod_eq_of_lt (by omega))
  obtain ⟨w, hw, hproduct⟩ :=
    Word.exists_product (x := .ofNat 32 (ms % 1000).toNat) (y := (1000000 : BitVec 32))
      (by rw [hrest, hmillion]; omega)
  refine ⟨w, hw, ?_⟩
  rw [hproduct, hrest, hmillion, ofMillis]

end Duration

/-- A call that changes a configuration while it is built. -/
inductive BuilderCall
  | busyTimeout (d : Duration)
  | provisionedBacking (provision : Bool)

namespace BuilderCall

def apply : BuilderCall → StoreConfig → StoreConfig
  | busyTimeout d, c => c.withBusyTimeout d
  | provisionedBacking provision, c => c.withProvisionedBacking provision

def duration? : BuilderCall → Option Duration
  | busyTimeout d => some d
  | provisionedBacking _ => none

def provision? : BuilderCall → Option Bool
  | busyTimeout _ => none
  | provisionedBacking provision => some provision

/-- What the last of the calls that ask for something asks for. -/
def last? {α : Type} (asked? : BuilderCall → Option α) (calls : List BuilderCall) : Option α :=
  (calls.filterMap asked?).getLast?

theorem last?_append_singleton {α : Type} (asked? : BuilderCall → Option α)
    (calls : List BuilderCall) (call : BuilderCall) :
    last? asked? (calls ++ [call]) = (asked? call).or (last? asked? calls) := by
  rw [last?, List.filterMap_append, List.getLast?_append, last?]
  cases h : asked? call <;> simp [h]

end BuilderCall

namespace StoreConfig

open BuilderCall (duration? last? last?_append_singleton provision?)
open Duration

variable {c : StoreConfig} {d : Duration} {ms : UInt64}

/-! ### What is kept of a duration -/

theorem busyTimeoutMs_withBusyTimeout (c : StoreConfig) (d : Duration) :
    (c.withBusyTimeout d).busyTimeoutMs.toNat = min d.millis (2 ^ 64 - 1) := by
  have hlt : min d.millis (2 ^ 64 - 1) < UInt64.size := by
    rw [UInt64.size]
    omega
  exact UInt64.toNat_ofNat_of_lt hlt

/-- What is kept is the greatest count of milliseconds that are no longer than the
duration. -/
theorem le_busyTimeoutMs_iff : ms ≤ (c.withBusyTimeout d).busyTimeoutMs ↔ ofMillis ms ≤ d := by
  have hlt := ms.toNat_lt
  rw [UInt64.le_iff_toNat_le, busyTimeoutMs_withBusyTimeout, le_iff_toNanos_le, toNanos_ofMillis,
    millis_eq]
  omega

theorem busyTimeout_le (c : StoreConfig) (d : Duration) : (c.withBusyTimeout d).busyTimeout ≤ d :=
  le_busyTimeoutMs_iff.mp (UInt64.le_refl _)

theorem busyTimeout_monotone (c : StoreConfig) :
    Monotone fun d => (c.withBusyTimeout d).busyTimeout := by
  intro d e h
  -- what is kept of `d` is no longer than `e`, so what is kept of `e` is no shorter
  have hle : (c.withBusyTimeout d).busyTimeout ≤ e := (busyTimeout_le c d).trans h
  exact ofMillis_le_ofMillis.mpr (le_busyTimeoutMs_iff.mpr hle)

/-- The loss is less than a millisecond just if the milliseconds can be counted. -/
theorem lt_busyTimeout_add_iff (c : StoreConfig) (d : Duration) :
    d.toNanos < (c.withBusyTimeout d).busyTimeout.toNanos + 10 ^ 6 ↔
      d.toNanos / 10 ^ 6 < 2 ^ 64 := by
  rw [busyTimeout, toNanos_ofMillis, busyTimeoutMs_withBusyTimeout, millis_eq]
  omega

/-- A configuration that is given its own wait stays as it is. -/
theorem withBusyTimeout_busyTimeout (c : StoreConfig) : c.withBusyTimeout c.busyTimeout = c := by
  have hkept : (c.withBusyTimeout c.busyTimeout).busyTimeoutMs = c.busyTimeoutMs := by
    apply UInt64.le_antisymm
    · exact ofMillis_le_ofMillis.mp (busyTimeout_le c c.busyTimeout)
    · exact le_busyTimeoutMs_iff.mpr (le_refl c.busyTimeout)
  exact congrArg (fun ms => { c with busyTimeoutMs := ms }) hkept

/-- What a configuration that is to wait as long as a duration makes of it. -/
structure WaitsFor (c : StoreConfig) (d : Duration) : Prop where
  /-- The whole milliseconds are kept, or as many as 64 bits count. -/
  counted : c.busyTimeoutMs.toNat = min (d.toNanos / 10 ^ 6) (2 ^ 64 - 1)
  /-- No step on the way to them leaves its words. -/
  reckoned : ∃ w, d.wideMillis? = some w ∧ w.toNat = d.toNanos / 10 ^ 6 ∧
    c.busyTimeoutMs = Word.narrowed w
  /-- No step on the way back leaves its words either. -/
  givenBack : ∃ w, narrowNanos? c.busyTimeoutMs = some w ∧ w.toNat = c.busyTimeout.nanos
  lasting : c.busyTimeout.toNanos = 10 ^ 6 * c.busyTimeoutMs.toNat
  notLonger : c.busyTimeout ≤ d
  close : d.toNanos < c.busyTimeout.toNanos + 10 ^ 6 ↔ d.toNanos / 10 ^ 6 < 2 ^ 64
  settled : c.withBusyTimeout c.busyTimeout = c

theorem waitsFor (c : StoreConfig) (d : Duration) : (c.withBusyTimeout d).WaitsFor d where
  counted := by
    rw [← millis_eq]
    exact busyTimeoutMs_withBusyTimeout c d
  reckoned := by
    obtain ⟨w, hw, hmillis⟩ := exists_wideMillis d
    refine ⟨w, hw, hmillis.trans d.millis_eq, UInt64.toNat_inj.mp ?_⟩
    rw [busyTimeoutMs_withBusyTimeout, Word.toNat_narrowed, hmillis]
  givenBack := exists_narrowNanos _
  lasting := toNanos_ofMillis _
  notLonger := busyTimeout_le c d
  close := lt_busyTimeout_add_iff c d
  settled := withBusyTimeout_busyTimeout _

/-! ### Calls that build a configuration -/

/-- The configuration after some calls, one after the other. -/
def built (c : StoreConfig) (calls : List BuilderCall) : StoreConfig :=
  calls.foldl (fun c call => call.apply c) c

/-- The configuration with a wait and a choice on the tables of the backing records, as far
as they are given. -/
def decided (c : StoreConfig) (wait : Option Duration) (provision : Option Bool) : StoreConfig :=
  { c with
    busyTimeoutMs := wait.elim c.busyTimeoutMs fun d =>
      .ofNat (min (d.toNanos / 10 ^ 6) (2 ^ 64 - 1))
    provisionBacking := provision.getD c.provisionBacking }

/-- One more call takes the place of the one of its kind and of no other. -/
theorem apply_decided (call : BuilderCall) (c : StoreConfig) (wait : Option Duration)
    (provision : Option Bool) :
    call.apply (c.decided wait provision) =
      c.decided (call.duration?.or wait) (call.provision?.or provision) := by
  cases call with
  | busyTimeout d =>
    simp only [BuilderCall.apply, withBusyTimeout, millis_eq]
    rfl
  | provisionedBacking b => rfl

theorem built_append_singleton (c : StoreConfig) (calls : List BuilderCall) (call : BuilderCall) :
    c.built (calls ++ [call]) = call.apply (c.built calls) := by
  simp only [built, List.foldl_append, List.foldl_cons, List.foldl_nil]

theorem built_eq_decided (c : StoreConfig) (calls : List BuilderCall) :
    c.built calls = c.decided (last? duration? calls) (last? provision? calls) := by
  -- on the last call, as it is the one that others cannot overrule
  induction calls using List.reverseRecOn with
  | nil => rfl
  | append_singleton calls call ih =>
    rw [built_append_singleton, ih, apply_decided, last?_append_singleton, last?_append_singleton]

/-- A configuration keeps the whole milliseconds of every duration it is to wait, as far as
64 bits count them, and gives them back, so that longer durations make longer waits; of the
calls that build it the last of each kind decides, and all else stays. -/
theorem timeouts_exact (c : StoreConfig) :
    (∀ d, (c.withBusyTimeout d).WaitsFor d) ∧
      Monotone (fun d => (c.withBusyTimeout d).busyTimeout) ∧
      ∀ calls : List BuilderCall,
        c.built calls = c.decided (last? duration? calls) (last? provision? calls) :=
  ⟨waitsFor c, busyTimeout_monotone c, built_eq_decided c⟩

/-- The longest duration of which less than a millisecond is lost and the next one, which
waits no shorter, and four calls of which two are overruled. -/
theorem timeouts_exact_atBound :
    (inMemory.withBusyTimeout ⟨18446744073709551, 615999999, by decide⟩).busyTimeoutMs.toNat =
      2 ^ 64 - 1 ∧
    ¬toNanos ⟨18446744073709551, 616000000, by decide⟩ <
      (inMemory.withBusyTimeout ⟨18446744073709551, 616000000, by decide⟩).busyTimeout.toNanos +
        10 ^ 6 ∧
    ((⟨18446744073709551, 615999999, by decide⟩ : Duration) ≤
        ⟨18446744073709551, 616000000, by decide⟩ ∧
      (inMemory.withBusyTimeout ⟨18446744073709551, 615999999, by decide⟩).busyTimeout ≤
        (inMemory.withBusyTimeout ⟨18446744073709551, 616000000, by decide⟩).busyTimeout) ∧
    inMemory.built [.busyTimeout ⟨18446744073709551, 616000000, by decide⟩,
        .provisionedBacking true, .busyTimeout ⟨1, 500000000, by decide⟩,
        .provisionedBacking false] =
      { busyTimeoutMs := 1500, provisionBacking := false } := by
  obtain ⟨hwaits, hmonotone, hbuilt⟩ := timeouts_exact inMemory
  have hle : (⟨18446744073709551, 615999999, by decide⟩ : Duration) ≤
      ⟨18446744073709551, 616000000, by decide⟩ := le_iff_toNanos_le.mpr (by decide)
  refine ⟨?_, ?_, ⟨hle, hmonotone hle⟩, ?_⟩
  · exact (hwaits _).counted.trans (by decide)
  · exact mt (hwaits _).close.mp (by decide)
  · exact (hbuilt _).trans (by decide)

end StoreConfig

end OwnershipRegistry
