import DataflowOps.SleepPolicy
import DataflowOps.Duration

/-!
# Operator settings

The settings shared by every command, as asked for and as validated.
-/

namespace DataflowOps

/-- Settings shared by every command. The retry timeout is in whole milliseconds, as the command
line gives it; finer ones, for which a program could ask, are left out. -/
structure Settings where
  application : String
  workers : Positive
  retryTimeout : Nat
  sleepPolicy : SleepPolicy
  clockReadTicks : Nat
  deriving DecidableEq

/-- Settings as asked for, of which only the sleep bounds can be at odds with each other. Times are
in milliseconds for the round trips and in seconds for the sleeps. -/
structure SettingsDraft where
  application : String := "flow"
  workers : Positive := ⟨1, by decide⟩
  retryTimeout : Nat := 500
  minimumSleep : Nat := SleepPolicy.standard.minimum
  maximumSleep : Nat := SleepPolicy.standard.maximum
  ratePerWorker : Positive := SleepPolicy.standard.ratePerWorker
  clockReadTicks : Nat := 1
  deriving DecidableEq

/-- The settings of a draft whose sleep bounds are in order. -/
def SettingsDraft.validate (draft : SettingsDraft) : Except OperatorMistake Settings := do
  let sleepPolicy ← SleepPolicy.ofBounds draft.minimumSleep draft.maximumSleep draft.ratePerWorker
  return {
    application := draft.application
    workers := draft.workers
    retryTimeout := draft.retryTimeout
    sleepPolicy := sleepPolicy
    clockReadTicks := draft.clockReadTicks }

end DataflowOps
