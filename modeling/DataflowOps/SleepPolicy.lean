import DataflowOps.OperatorMistake

/-!
# Sleep between polls

The time to wait before the outstanding work is sampled again grows with the backlog: it is the
time the workers are assumed to need for it, kept between a shortest and a longest sleep.
-/

namespace DataflowOps

abbrev Positive := { number : Nat // 0 < number }

/-- Sleep bounds in seconds and the number of notifications a worker is assumed to process per
second. -/
structure SleepPolicy where
  minimum : Nat
  maximum : Nat
  ratePerWorker : Positive
  minimum_le_maximum : minimum ≤ maximum
  deriving DecidableEq

namespace SleepPolicy

def defaultRate : Positive := ⟨100, by decide⟩

def standard : SleepPolicy := ⟨10, 300, defaultRate, by decide⟩

/-- The policy with the given bounds, refused when they are inverted. -/
def ofBounds (minimum maximum : Nat) (ratePerWorker : Positive) :
    Except OperatorMistake SleepPolicy :=
  if ordered : minimum ≤ maximum then .ok ⟨minimum, maximum, ratePerWorker, ordered⟩
  else .error (.invertedSleepBounds minimum maximum)

/-- Seconds to wait before the next poll. -/
def sleepSeconds (policy : SleepPolicy) (outstanding : Nat) (workers : Positive) : Nat :=
  let estimate := outstanding / workers / policy.ratePerWorker
  max policy.minimum (min estimate policy.maximum)

theorem sleepSeconds_le_maximum (policy : SleepPolicy) (outstanding : Nat) (workers : Positive) :
    policy.sleepSeconds outstanding workers ≤ policy.maximum :=
  Nat.max_le.2 ⟨policy.minimum_le_maximum, Nat.min_le_right ..⟩

end SleepPolicy

end DataflowOps
