import DataflowOps.Wait.Sample

/-!
# Arithmetic of the verdict

The verdict of a sample is a comparison of clock readings and, if work is left, a sleep in
proportion to the backlog. This file gives both in unbounded arithmetic. It then evaluates the
verdict on words of 64 bits, by operations that may break down, and shows that none of them does.
-/

namespace DataflowOps

namespace SleepPolicy

variable {minimum maximum : Nat} {rate : Positive} {policy : SleepPolicy}

theorem ofBounds_eq_ok_iff :
    ofBounds minimum maximum rate = .ok policy ↔
      policy.minimum = minimum ∧ policy.maximum = maximum ∧ policy.ratePerWorker = rate := by
  rcases policy with ⟨policyMinimum, policyMaximum, policyRate, ordered⟩
  simp only [ofBounds]
  constructor
  · intro accepted
    split at accepted
    · cases accepted
      exact ⟨rfl, rfl, rfl⟩
    · cases accepted
  · rintro ⟨rfl, rfl, rfl⟩
    exact dif_pos ordered

theorem exists_ofBounds_iff :
    (∃ policy, ofBounds minimum maximum rate = .ok policy) ↔ minimum ≤ maximum := by
  constructor
  · rintro ⟨policy, accepted⟩
    rcases ofBounds_eq_ok_iff.1 accepted with ⟨rfl, rfl, _⟩
    exact policy.minimum_le_maximum
  · intro ordered
    exact ⟨⟨minimum, maximum, rate, ordered⟩, dif_pos ordered⟩

/-- The two divisions are one by the product of workers and rate. -/
theorem sleepSeconds_eq (policy : SleepPolicy) (outstanding : Nat) (workers : Positive) :
    policy.sleepSeconds outstanding workers =
      max policy.minimum
        (min policy.maximum (outstanding / (workers * policy.ratePerWorker))) := by
  rw [sleepSeconds, Nat.div_div_eq_div_mul, Nat.min_comm]

theorem minimum_le_sleepSeconds (policy : SleepPolicy) (outstanding : Nat) (workers : Positive) :
    policy.minimum ≤ policy.sleepSeconds outstanding workers :=
  Nat.le_max_left ..

/-- More work, fewer workers and a lower rate never make a sleep shorter. -/
theorem sleepSeconds_mono {other : SleepPolicy} (sameMinimum : other.minimum = policy.minimum)
    (sameMaximum : other.maximum = policy.maximum)
    (slower : (other.ratePerWorker : Nat) ≤ policy.ratePerWorker) {fewer workers : Positive}
    (notMoreWorkers : (fewer : Nat) ≤ workers) {outstanding more : Nat}
    (notLess : outstanding ≤ more) :
    policy.sleepSeconds outstanding workers ≤ other.sleepSeconds more fewer := by
  have product : (fewer : Nat) * other.ratePerWorker ≤ workers * policy.ratePerWorker :=
    Nat.mul_le_mul notMoreWorkers slower
  have positive : (fewer : Nat) * other.ratePerWorker ≠ 0 :=
    Nat.ne_of_gt (Nat.mul_pos fewer.2 other.ratePerWorker.2)
  have estimates : outstanding / (workers * policy.ratePerWorker) ≤
      more / (fewer * other.ratePerWorker) :=
    Nat.div_le_div notLess product positive
  rw [sleepSeconds_eq, sleepSeconds_eq, sameMinimum, sameMaximum]
  omega

end SleepPolicy

namespace Timestamp

theorem elapsedSince?_eq_some_iff {later earlier : Timestamp} {ticks : Nat} :
    later.elapsedSince? earlier = some ticks ↔
      later.ticks.toNat = earlier.ticks.toNat + ticks := by
  rw [elapsedSince?]
  split
  · next before =>
    rw [lt_iff] at before
    constructor
    · intro found
      cases found
    · intro sum
      omega
  · next notBefore =>
    rw [lt_iff] at notBefore
    rw [Option.some.injEq]
    omega

end Timestamp

namespace BacklogSample

variable {sample : BacklogSample} {policy : SleepPolicy} {workers : Positive}
  {clockReadTicks : Nat}

theorem verdict_eq_finished_iff :
    sample.verdict policy workers clockReadTicks = .finished ↔
      sample.outstanding = 0 ∧
        sample.after.ticks.toNat = sample.before.ticks.toNat + clockReadTicks := by
  rw [← showsQuiescence_iff, verdict]
  simp

theorem eq_sleepSeconds_of_verdict {seconds : Nat}
    (judged : sample.verdict policy workers clockReadTicks = .pollAgain seconds) :
    seconds = policy.sleepSeconds sample.outstanding workers := by
  rw [verdict] at judged
  split at judged
  · cases judged
  · cases judged
    rfl

/-- A clock that went back, or that cannot hold the reading to be expected, is no quiet clock. -/
theorem verdict_ne_finished_of_clock
    (disordered : sample.after < sample.before ∨
      UInt64.size ≤ sample.before.ticks.toNat + clockReadTicks) :
    sample.verdict policy workers clockReadTicks ≠ .finished := by
  intro finished
  rcases verdict_eq_finished_iff.1 finished with ⟨_, sum⟩
  rcases disordered with back | beyond
  · rw [Timestamp.lt_iff] at back
    omega
  · have bounded := sample.after.ticks.toNat_lt_size
    omega

end BacklogSample

/-- The numbers that a verdict is computed from, as words of 64 bits. Workers and rate are not zero
and the bounds of the sleep are in order. -/
structure VerdictWords where
  before : UInt64
  outstanding : UInt64
  after : UInt64
  clockReadTicks : UInt64
  minimum : UInt64
  maximum : UInt64
  ratePerWorker : UInt64
  workers : UInt64
  rate_ne_zero : ratePerWorker ≠ 0
  workers_ne_zero : workers ≠ 0
  minimum_le_maximum : minimum ≤ maximum

namespace VerdictWords

/-- The sum of two words, unless a word cannot hold it. -/
def sum? (left right : UInt64) : Option UInt64 :=
  if left.toNat + right.toNat < UInt64.size then some (left + right) else none

/-- The quotient of two words, unless it is one by zero. -/
def quotient? (dividend divisor : UInt64) : Option UInt64 :=
  if divisor = 0 then none else some (dividend / divisor)

/-- The word within two bounds that is nearest to a word, unless the bounds are inverted. -/
def clamp? (word low high : UInt64) : Option UInt64 :=
  if high < low then none
  else if word < low then some low
  else if high < word then some high
  else some word

/-- The seconds to wait before the next poll, unless an operation breaks down. -/
def sleepSeconds? (words : VerdictWords) : Option UInt64 := do
  let perWorker ← quotient? words.outstanding words.workers
  let estimate ← quotient? perWorker words.ratePerWorker
  clamp? estimate words.minimum words.maximum

/-- The verdict computed on words, unless an operation breaks down. A sum that a word cannot hold is
no breakdown: it equals no reading. -/
def verdict? (words : VerdictWords) : Option Verdict :=
  if words.outstanding = 0 ∧ sum? words.before words.clockReadTicks = some words.after then
    some .finished
  else words.sleepSeconds?.map fun seconds => .pollAgain seconds.toNat

def sample (words : VerdictWords) : BacklogSample :=
  ⟨⟨words.before⟩, words.outstanding.toNat, ⟨words.after⟩⟩

theorem toNat_pos {word : UInt64} (notZero : word ≠ 0) : 0 < word.toNat := by
  apply Nat.pos_of_ne_zero
  intro zero
  exact notZero (UInt64.toNat_inj.1 zero)

def policy (words : VerdictWords) : SleepPolicy where
  minimum := words.minimum.toNat
  maximum := words.maximum.toNat
  ratePerWorker := ⟨words.ratePerWorker.toNat, toNat_pos words.rate_ne_zero⟩
  minimum_le_maximum := UInt64.le_iff_toNat_le.1 words.minimum_le_maximum

def workerCount (words : VerdictWords) : Positive :=
  ⟨words.workers.toNat, toNat_pos words.workers_ne_zero⟩

theorem sum?_eq_some_iff {left right sum : UInt64} :
    sum? left right = some sum ↔ sum.toNat = left.toNat + right.toNat := by
  have bounded := sum.toNat_lt_size
  rw [sum?]
  split
  · next room =>
    have whole : (left + right).toNat = left.toNat + right.toNat := by
      rw [UInt64.toNat_add]
      exact Nat.mod_eq_of_lt room
    rw [Option.some.injEq, ← UInt64.toNat_inj, whole]
    exact eq_comm
  · next overflow =>
    constructor
    · intro found
      cases found
    · intro whole
      omega

theorem quotient?_of_ne_zero {divisor : UInt64} (notZero : divisor ≠ 0) (dividend : UInt64) :
    quotient? dividend divisor = some (dividend / divisor) :=
  if_neg notZero

theorem clamp?_of_le {low high : UInt64} (ordered : low ≤ high) (word : UInt64) :
    ∃ clamped, clamp? word low high = some clamped ∧
      clamped.toNat = max low.toNat (min word.toNat high.toNat) := by
  rw [UInt64.le_iff_toNat_le] at ordered
  have notInverted : ¬ high < low := by
    rw [UInt64.lt_iff_toNat_lt]
    omega
  rw [clamp?, if_neg notInverted]
  split
  · next below =>
    rw [UInt64.lt_iff_toNat_lt] at below
    exact ⟨low, rfl, by omega⟩
  · next notBelow =>
    rw [UInt64.lt_iff_toNat_lt] at notBelow
    split
    · next above =>
      rw [UInt64.lt_iff_toNat_lt] at above
      exact ⟨high, rfl, by omega⟩
    · next notAbove =>
      rw [UInt64.lt_iff_toNat_lt] at notAbove
      exact ⟨word, rfl, by omega⟩

/-- No operation on words breaks down, and together they give the sleep of unbounded arithmetic. -/
theorem sleepSeconds?_spec (words : VerdictWords) :
    ∃ seconds, words.sleepSeconds? = some seconds ∧
      seconds.toNat =
        words.policy.sleepSeconds words.outstanding.toNat words.workerCount := by
  rcases clamp?_of_le words.minimum_le_maximum
    (words.outstanding / words.workers / words.ratePerWorker) with ⟨seconds, clamped, value⟩
  refine ⟨seconds, ?_, ?_⟩
  · simp only [sleepSeconds?, quotient?_of_ne_zero words.workers_ne_zero,
      quotient?_of_ne_zero words.rate_ne_zero, bind, Option.bind, clamped]
  · rw [value, UInt64.toNat_div, UInt64.toNat_div]
    rfl

/-- The verdict on words is the one on the numbers that they stand for. -/
theorem verdict?_eq (words : VerdictWords) :
    words.verdict? = some (words.sample.verdict words.policy words.workerCount
      words.clockReadTicks.toNat) := by
  have quiescent : words.outstanding = 0 ∧
      sum? words.before words.clockReadTicks = some words.after ↔
        words.sample.showsQuiescence words.clockReadTicks.toNat = true := by
    rw [BacklogSample.showsQuiescence_iff, sum?_eq_some_iff, ← UInt64.toNat_inj]
    rfl
  rcases words.sleepSeconds?_spec with ⟨seconds, computed, value⟩
  rw [verdict?, BacklogSample.verdict, computed]
  simp only [quiescent, apply_ite some]
  rw [Option.map_some, value]
  rfl

end VerdictWords

namespace BacklogSample

/-- The verdict in unbounded arithmetic: the sleep is within its bounds, never shorter for more work
and never longer for more workers or a higher rate. On words of 64 bits the verdict is the same. -/
theorem verdict_arithmetic (sample : BacklogSample) {minimum maximum : Nat} {rate : Positive}
    (workers : Positive) (clockReadTicks : Nat) {policy : SleepPolicy}
    (accepted : SleepPolicy.ofBounds minimum maximum rate = .ok policy) :
    (∀ low high, (∃ other, SleepPolicy.ofBounds low high rate = .ok other) ↔ low ≤ high) ∧
      (sample.verdict policy workers clockReadTicks =
        if sample.outstanding = 0 ∧
            sample.after.ticks.toNat = sample.before.ticks.toNat + clockReadTicks then .finished
        else .pollAgain (max minimum (min maximum (sample.outstanding / (workers * rate))))) ∧
      (sample.after.elapsedSince? sample.before = some clockReadTicks ↔
        sample.after.ticks.toNat = sample.before.ticks.toNat + clockReadTicks) ∧
      (sample.after < sample.before ∨
          UInt64.size ≤ sample.before.ticks.toNat + clockReadTicks →
        sample.verdict policy workers clockReadTicks ≠ .finished) ∧
      (∀ seconds, sample.verdict policy workers clockReadTicks = .pollAgain seconds →
        minimum ≤ seconds ∧ seconds ≤ maximum ∧
          ∀ (slower fewer : Positive) (other : SleepPolicy) (busier : BacklogSample) (ticks longer),
            SleepPolicy.ofBounds minimum maximum slower = .ok other → (slower : Nat) ≤ rate →
              (fewer : Nat) ≤ workers → sample.outstanding ≤ busier.outstanding →
                busier.verdict other fewer ticks = .pollAgain longer → seconds ≤ longer) ∧
      ∀ words : VerdictWords, words.verdict? = some (words.sample.verdict words.policy
        words.workerCount words.clockReadTicks.toNat) := by
  rcases SleepPolicy.ofBounds_eq_ok_iff.1 accepted with ⟨rfl, rfl, rfl⟩
  refine ⟨fun _ _ => SleepPolicy.exists_ofBounds_iff, ?_, Timestamp.elapsedSince?_eq_some_iff,
    verdict_ne_finished_of_clock, ?_, VerdictWords.verdict?_eq⟩
  · rw [verdict, SleepPolicy.sleepSeconds_eq]
    simp only [showsQuiescence_iff]
  · intro seconds judged
    rw [eq_sleepSeconds_of_verdict judged]
    refine ⟨policy.minimum_le_sleepSeconds _ _, policy.sleepSeconds_le_maximum _ _, ?_⟩
    intro slower fewer other busier ticks longer acceptedOther notFaster notMoreWorkers notLess
      judgedOther
    rcases SleepPolicy.ofBounds_eq_ok_iff.1 acceptedOther with ⟨sameMinimum, sameMaximum, rfl⟩
    rw [eq_sleepSeconds_of_verdict judgedOther]
    exact SleepPolicy.sleepSeconds_mono sameMinimum sameMaximum notFaster notMoreWorkers notLess

/-- A rate that no word can hold the product of with as many workers. -/
def highRate : Positive :=
  ⟨0x100000000, by decide⟩

/-- As much work as a word can hold, for workers and a rate of which no word holds the product. -/
def highRateWords : VerdictWords where
  before := 5
  outstanding := 0xffffffffffffffff
  after := 6
  clockReadTicks := 1
  minimum := 10
  maximum := 300
  ratePerWorker := 0x100000000
  workers := 0x100000000
  rate_ne_zero := by decide
  workers_ne_zero := by decide
  minimum_le_maximum := by decide

theorem verdict_arithmetic_highRate :
    SleepPolicy.ofBounds 10 300 highRate = .ok ⟨10, 300, highRate, by decide⟩ ∧
      UInt64.size ≤ highRate * (highRate : Nat) ∧
      verdict ⟨⟨5⟩, 0xffffffffffffffff, ⟨6⟩⟩ ⟨10, 300, highRate, by decide⟩ highRate 1 =
        .pollAgain 10 ∧
      verdict ⟨.last, 0, .zero⟩ ⟨10, 300, highRate, by decide⟩ highRate 1 ≠ .finished ∧
      highRateWords.sample = ⟨⟨5⟩, 0xffffffffffffffff, ⟨6⟩⟩ ∧
      highRateWords.verdict? = some (.pollAgain 10) := by
  have accepted : SleepPolicy.ofBounds 10 300 highRate = .ok ⟨10, 300, highRate, by decide⟩ := rfl
  rcases verdict_arithmetic ⟨⟨5⟩, 0xffffffffffffffff, ⟨6⟩⟩ highRate 1 accepted with
    ⟨_, judged, _, _, _, onWords⟩
  have sleeps := judged.trans (show _ = Verdict.pollAgain 10 by decide)
  refine ⟨accepted, by decide, sleeps, ?_, rfl, ?_⟩
  · rcases verdict_arithmetic ⟨.last, 0, .zero⟩ highRate 1 accepted with
      ⟨_, _, _, disordered, _⟩
    exact disordered (Or.inl (by decide))
  · exact (onWords highRateWords).trans (congrArg some sleeps)

end BacklogSample

end DataflowOps
