import DataflowOps.Settings
import DataflowOps.Timestamp

/-!
# Samples of the outstanding work

A sample counts the outstanding notifications between two reads of the logical clock. The cluster is
quiescent only when nothing is outstanding and the clock advanced by no more than its own reads
cost: a larger advance means that some client committed in between, and work may have come
and gone unseen.
-/

namespace DataflowOps

/-- One count of the outstanding notifications with the clock read before and after it. -/
structure BacklogSample where
  before : Timestamp
  outstanding : Nat
  after : Timestamp
  deriving DecidableEq, Repr

inductive Verdict where
  | finished
  | pollAgain (sleepSeconds : Nat)
  deriving DecidableEq, Repr

namespace BacklogSample

/-- Whether nothing was outstanding and the clock advanced by exactly `clockReadTicks`. -/
def showsQuiescence (sample : BacklogSample) (clockReadTicks : Nat) : Bool :=
  sample.outstanding == 0 && sample.before.after? clockReadTicks == some sample.after

theorem showsQuiescence_iff {sample : BacklogSample} {clockReadTicks : Nat} :
    sample.showsQuiescence clockReadTicks = true ↔
      sample.outstanding = 0 ∧
        sample.after.ticks.toNat = sample.before.ticks.toNat + clockReadTicks := by
  simp [showsQuiescence, Timestamp.after?_eq_some_iff]

def verdict (sample : BacklogSample) (policy : SleepPolicy) (workers : Positive)
    (clockReadTicks : Nat) : Verdict :=
  if sample.showsQuiescence clockReadTicks then .finished
  else .pollAgain (policy.sleepSeconds sample.outstanding workers)

def verdictUnder (settings : Settings) (sample : BacklogSample) : Verdict :=
  sample.verdict settings.sleepPolicy settings.workers settings.clockReadTicks

theorem verdictUnder_eq_finished_iff {settings : Settings} {sample : BacklogSample} :
    sample.verdictUnder settings = .finished ↔
      sample.showsQuiescence settings.clockReadTicks = true := by
  simp [verdictUnder, verdict]

end BacklogSample

end DataflowOps
