import OwnershipRegistry.Text.Hex

/-!
The configuration of a store on a file: where the file is, how long to wait for
a lock, whether to make the tables of the backing records, and whether changes
are written ahead to a journal. The wait is kept in whole milliseconds.
-/

namespace OwnershipRegistry

structure Duration where
  seconds : UInt64
  nanos : Nat
  nanos_lt : nanos < 10 ^ 9
  deriving DecidableEq, Repr

namespace Duration

/-- The duration of some seconds and nanoseconds, which may make up further
seconds, if the seconds can be counted. -/
def ofParts? (seconds nanos : Nat) : Option Duration :=
  if seconds + nanos / 10 ^ 9 < 2 ^ 64 then
    some ⟨.ofNat (seconds + nanos / 10 ^ 9), nanos % 10 ^ 9, Nat.mod_lt _ (by decide)⟩
  else none

def millis (d : Duration) : Nat := 1000 * d.seconds.toNat + d.nanos / 10 ^ 6

/-- The duration of some milliseconds. -/
def ofMillis (ms : UInt64) : Duration :=
  ⟨ms / 1000, (ms % 1000).toNat * 10 ^ 6, by
    have h : (ms % 1000).toNat < 1000 := by
      rw [UInt64.toNat_mod]
      exact Nat.mod_lt _ (by decide)
    omega⟩

end Duration

structure StoreConfig where
  /-- The file; without one the store is private and in memory. -/
  path : Option String := none
  busyTimeoutMs : UInt64 := 5000
  /-- Whether to make the tables of the backing records if they are absent. -/
  provisionBacking : Bool := true
  /-- Whether the file's changes are written ahead to a journal. -/
  writeAhead : Bool := true
  deriving DecidableEq, Repr, Inhabited

namespace StoreConfig

def inMemory : StoreConfig := {}

def atPath (path : String) : StoreConfig := { path := some path }

/-- Waits for a lock as long as given, in whole milliseconds and as far as they
can be counted. -/
def withBusyTimeout (c : StoreConfig) (d : Duration) : StoreConfig :=
  { c with busyTimeoutMs := .ofNat (min d.millis (2 ^ 64 - 1)) }

/-- Makes the tables of the backing records, or leaves them to others. -/
def withProvisionedBacking (c : StoreConfig) (provision : Bool) : StoreConfig :=
  { c with provisionBacking := provision }

def busyTimeout (c : StoreConfig) : Duration := .ofMillis c.busyTimeoutMs

end StoreConfig

end OwnershipRegistry
