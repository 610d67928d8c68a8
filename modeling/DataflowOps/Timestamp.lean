import DataflowOps.Order

/-!
# Readings of the logical clock

The engine numbers commits, opened snapshots and clock reads by one counter of 64 bits. A sum that
leaves the counter's range and a difference that would be negative have no reading.
-/

namespace DataflowOps

/-- A reading of the engine's logical clock. -/
structure Timestamp where
  ticks : UInt64
  deriving DecidableEq, Repr

namespace Timestamp

instance : LT Timestamp := ⟨fun left right => left.ticks < right.ticks⟩

instance : DecidableLT Timestamp :=
  fun left right => inferInstanceAs (Decidable (left.ticks < right.ticks))

instance : StrictTotalOrder Timestamp where
  irrefl timestamp before := UInt64.lt_irrefl timestamp.ticks before
  trans lowBefore middleBefore := UInt64.lt_trans lowBefore middleBefore
  connected {left right} notBefore notAfter := by
    cases left; cases right
    exact congrArg _ (UInt64.le_antisymm (UInt64.not_lt.1 notAfter) (UInt64.not_lt.1 notBefore))

def zero : Timestamp := ⟨0⟩

def last : Timestamp := ⟨0xffffffffffffffff⟩

def next (timestamp : Timestamp) : Timestamp :=
  ⟨timestamp.ticks + 1⟩

/-- The reading `ticks` later, when the counter can hold it. -/
def after? (timestamp : Timestamp) (ticks : Nat) : Option Timestamp :=
  let sum := timestamp.ticks.toNat + ticks
  if sum < UInt64.size then some ⟨sum.toUInt64⟩ else none

/-- Ticks from `earlier` to `later`, when the clock did not go backwards. -/
def elapsedSince? (later earlier : Timestamp) : Option Nat :=
  if later < earlier then none else some (later.ticks.toNat - earlier.ticks.toNat)

def compareTo (left right : Timestamp) : Ordering :=
  if left < right then .lt else if right < left then .gt else .eq

def text (timestamp : Timestamp) : String :=
  toString timestamp.ticks.toNat

/-- The text of a reading that names its type. -/
def labelledText (timestamp : Timestamp) : String :=
  "Timestamp(" ++ timestamp.text ++ ")"

theorem lt_iff {left right : Timestamp} :
    left < right ↔ left.ticks.toNat < right.ticks.toNat :=
  UInt64.lt_iff_toNat_lt

theorem ext_toNat {left right : Timestamp} (same : left.ticks.toNat = right.ticks.toNat) :
    left = right := by
  cases left
  cases right
  exact congrArg Timestamp.mk (UInt64.toNat_inj.1 same)

theorem next_toNat {timestamp : Timestamp} (room : timestamp.ticks.toNat + 1 < UInt64.size) :
    timestamp.next.ticks.toNat = timestamp.ticks.toNat + 1 := by
  simp only [next, UInt64.toNat_add]
  exact Nat.mod_eq_of_lt room

theorem after?_eq_some_iff {earlier later : Timestamp} {ticks : Nat} :
    earlier.after? ticks = some later ↔ later.ticks.toNat = earlier.ticks.toNat + ticks := by
  have bounded := later.ticks.toNat_lt_size
  simp only [after?]
  split
  · next room =>
    have exactSum : (earlier.ticks.toNat + ticks).toUInt64.toNat =
        earlier.ticks.toNat + ticks := by
      simpa [Nat.toUInt64] using Nat.mod_eq_of_lt room
    constructor
    · intro found
      rw [← Option.some.inj found]
      exact exactSum
    · intro sum
      exact congrArg some (ext_toNat (exactSum.trans sum.symm))
  · next overflow =>
    constructor
    · intro found
      cases found
    · intro sum
      omega

end Timestamp

end DataflowOps
