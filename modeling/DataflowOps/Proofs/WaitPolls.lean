import Mathlib.Logic.Relation
import DataflowOps.Wait.Run

/-!
# Polls of a wait

A wait goes from poll to poll until one of them is its last. This file says once what a poll can do:
either the wait goes on after it, or the poll concludes the wait. A run of a wait is then a chain of
polls of the first kind and one of the second kind, so that whatever holds of a wait in progress is
shown for a single poll.
-/

namespace DataflowOps

/-- A wait that is about to poll: the samples it has taken, the instant, the state it finds and what
it has reported since its first poll. -/
structure WaitStage (State : Type) where
  samples : List BacklogSample := []
  instant : Nat := 0
  state : State
  events : List Event := []

theorem Cancellation.hasPassed_of_interruption?_eq_none {cancellation : Cancellation} {wake : Nat}
    (slept : cancellation.interruption? wake = none) : cancellation.hasPassed wake = false := by
  cases cancellation with
  | never => rfl
  | beforeStart => simp [interruption?] at slept
  | atInstant instant =>
      simp only [interruption?, ite_eq_right_iff, reduceCtorEq, imp_false] at slept
      simp only [hasPassed, decide_eq_false_iff_not]
      omega

namespace BacklogSource

variable {State : Type}

theorem of_sample_eq_ok {source : BacklogSource State} {timeout now : Nat} {state : State}
    {sample : BacklogSample} (success : (source.sample timeout now state).result = .ok sample) :
    let counting := source.countOutstanding (source.readClock state).2
    ((source.readClock state).1.within timeout).result = .ok sample.before ∧
      ((source.readClock counting.2).1.within timeout).result = .ok sample.after ∧
      (source.sample timeout now state).state = (source.readClock counting.2).2 := by
  simp only [BacklogSource.sample, Timed.receive] at success ⊢
  split at success
  · cases success
  · next before first =>
    split at success
    · cases success
    · next outstanding second =>
      split at success
      · cases success
      · next after third =>
        obtain rfl := Except.ok.inj success
        simp only [first, third, and_self]

/-- What a wait reports about a sample that finds work. -/
def report (settings : Settings) (sample : BacklogSample) : Event :=
  .workOutstanding sample.outstanding sample.before sample.after
    (settings.sleepPolicy.sleepSeconds sample.outstanding settings.workers)

/-- The instant until which a wait means to sleep after a sample taken at `instant`. -/
def wake (settings : Settings) (sample : BacklogSample) (instant : Nat) : Nat :=
  instant + Pause.elapsed
    (1000 * settings.sleepPolicy.sleepSeconds sample.outstanding settings.workers)

/-- A wait that has taken one more sample, found work and slept until an instant. -/
def sleepOn (source : BacklogSource State) (settings : Settings) (sample : BacklogSample)
    (instant : Nat) (state : State) (stage : WaitStage State) : WaitStage State where
  samples := stage.samples ++ [sample]
  instant := instant
  state := (source.sleepUntil instant state).2
  events := stage.events ++ report settings sample :: (source.sleepUntil instant state).1

section Polls

variable (source : BacklogSource State) (settings : Settings) (cancellation : Cancellation)

/-- A poll after which a wait goes on: its sample finds work and nothing interrupts the sleep. -/
inductive PollsOn (stage : WaitStage State) : WaitStage State → Prop where
  | slept {sampled : Timed BacklogSample State} {sample : BacklogSample}
    (inTime : cancellation.hasPassed stage.instant = false)
    (taken : source.sample settings.retryTimeout stage.instant stage.state = sampled)
    (success : sampled.result = .ok sample)
    (busy : sample.showsQuiescence settings.clockReadTicks = false)
    (undisturbed : cancellation.interruption? (wake settings sample sampled.instant) = none) :
    PollsOn stage
      (source.sleepOn settings sample (wake settings sample sampled.instant) sampled.state stage)

/-- The last poll of a wait, with all that the wait reports since its first poll. -/
inductive Concludes (stage : WaitStage State) : WaitRun State → Prop where
  | cancelled (passed : cancellation.hasPassed stage.instant = true) :
    Concludes stage ⟨.ok (.cancelled stage.samples.length), stage.instant, stage.state,
      stage.events ++ [.waitCancelled stage.samples.length]⟩
  | failed {sampled : Timed BacklogSample State} {error : CallFailure}
    (inTime : cancellation.hasPassed stage.instant = false)
    (taken : source.sample settings.retryTimeout stage.instant stage.state = sampled)
    (failure : sampled.result = .error error) :
    Concludes stage ⟨.error ⟨error⟩, sampled.instant, sampled.state,
      stage.events ++ [.sampleFailed stage.samples.length error]⟩
  | finished {sampled : Timed BacklogSample State} {sample : BacklogSample}
    (inTime : cancellation.hasPassed stage.instant = false)
    (taken : source.sample settings.retryTimeout stage.instant stage.state = sampled)
    (success : sampled.result = .ok sample)
    (quiet : sample.showsQuiescence settings.clockReadTicks = true) :
    Concludes stage ⟨.ok (.finished (stage.samples.length + 1)), sampled.instant, sampled.state,
      stage.events ++ [.processingFinished (stage.samples.length + 1) sample.after]⟩
  | interrupted {sampled : Timed BacklogSample State} {sample : BacklogSample} {instant : Nat}
    {woken : WaitStage State}
    (inTime : cancellation.hasPassed stage.instant = false)
    (taken : source.sample settings.retryTimeout stage.instant stage.state = sampled)
    (success : sampled.result = .ok sample)
    (busy : sample.showsQuiescence settings.clockReadTicks = false)
    (interrupted : cancellation.interruption? (wake settings sample sampled.instant) = some instant)
    (slept : source.sleepOn settings sample (max sampled.instant instant) sampled.state stage =
      woken) :
    Concludes stage ⟨.ok (.cancelled woken.samples.length), woken.instant, woken.state,
      woken.events ++ [.waitCancelled woken.samples.length]⟩

/-- The stages of a wait that begins in a state. -/
def Reaches (state : State) (stage : WaitStage State) : Prop :=
  Relation.ReflTransGen (source.PollsOn settings cancellation) { state } stage

/-- The rest of a wait in progress, with what it has reported before. -/
def waitFrom (limit : Nat) (stage : WaitStage State) : Option (WaitRun State) :=
  (source.pollFrom settings cancellation limit stage.samples.length stage.instant stage.state).map
    (·.after stage.events)

end Polls

variable {source : BacklogSource State} {settings : Settings} {cancellation : Cancellation}
  {stage next : WaitStage State} {run : WaitRun State}

theorem verdictUnder_of_busy {sample : BacklogSample}
    (busy : sample.showsQuiescence settings.clockReadTicks = false) :
    sample.verdictUnder settings =
      .pollAgain (settings.sleepPolicy.sleepSeconds sample.outstanding settings.workers) := by
  simp [BacklogSample.verdictUnder, BacklogSample.verdict, busy]

/-- A poll does one of the two, whatever it finds. -/
theorem exists_pollsOn_or_concludes (source : BacklogSource State) (settings : Settings)
    (cancellation : Cancellation) (stage : WaitStage State) :
    (∃ next, source.PollsOn settings cancellation stage next) ∨
      ∃ run, source.Concludes settings cancellation stage run := by
  cases inTime : cancellation.hasPassed stage.instant with
  | true => exact .inr ⟨_, .cancelled inTime⟩
  | false =>
      cases result : (source.sample settings.retryTimeout stage.instant stage.state).result with
      | error error => exact .inr ⟨_, .failed inTime rfl result⟩
      | ok sample =>
          cases quiet : sample.showsQuiescence settings.clockReadTicks with
          | true => exact .inr ⟨_, .finished inTime rfl result quiet⟩
          | false =>
              cases interrupted : cancellation.interruption? (wake settings sample
                  (source.sample settings.retryTimeout stage.instant stage.state).instant) with
              | none => exact .inl ⟨_, .slept inTime rfl result quiet interrupted⟩
              | some instant => exact .inr ⟨_, .interrupted inTime rfl result quiet interrupted rfl⟩

theorem PollsOn.waitFrom (polled : source.PollsOn settings cancellation stage next)
    (limit : Nat) :
    source.waitFrom settings cancellation (limit + 1) stage =
      source.waitFrom settings cancellation limit next := by
  cases polled with
  | slept inTime taken success busy undisturbed =>
      simp only [wake] at undisturbed
      simp only [BacklogSource.waitFrom, pollFrom, inTime, Bool.false_eq_true, if_false, taken,
        success, verdictUnder_of_busy busy, undisturbed, Option.map_map]
      simp [sleepOn, wake, report, WaitRun.after, Function.comp_def]

theorem Concludes.waitFrom (concludes : source.Concludes settings cancellation stage run)
    (limit : Nat) : source.waitFrom settings cancellation (limit + 1) stage = some run := by
  cases concludes with
  | cancelled passed => simp [BacklogSource.waitFrom, pollFrom, passed, WaitRun.after]
  | failed inTime taken failure =>
      simp [BacklogSource.waitFrom, pollFrom, inTime, taken, failure, WaitRun.after]
  | finished inTime taken success quiet =>
      have verdict := BacklogSample.verdictUnder_eq_finished_iff.2 quiet
      simp [BacklogSource.waitFrom, pollFrom, inTime, taken, success, verdict, WaitRun.after]
  | interrupted inTime taken success busy interrupted slept =>
      subst slept
      simp only [wake] at interrupted
      simp only [BacklogSource.waitFrom, pollFrom, inTime, Bool.false_eq_true, if_false, taken,
        success, verdictUnder_of_busy busy, interrupted, Option.map_some]
      simp [sleepOn, report, WaitRun.after]

/-- A wait that reaches a stage is what is left of it there. -/
theorem waitFrom_of_reaches {state : State}
    (reached : source.Reaches settings cancellation state stage) (limit : Nat) :
    source.waitFrom settings cancellation (stage.samples.length + limit) { state } =
      source.waitFrom settings cancellation limit stage := by
  induction reached generalizing limit with
  | refl => rw [List.length_nil, Nat.zero_add]
  | @tail earlier later _ polled ih =>
      have counted : later.samples.length = earlier.samples.length + 1 := by
        cases polled
        simp [sleepOn]
      rw [counted, Nat.add_right_comm, Nat.add_assoc, ih, polled.waitFrom]

theorem pollFrom_of_reaches {state : State} {limit : Nat}
    (reached : source.Reaches settings cancellation state stage)
    (concludes : source.Concludes settings cancellation stage run)
    (enough : stage.samples.length < limit) :
    source.pollFrom settings cancellation limit 0 0 state = some run := by
  obtain ⟨more, rfl⟩ := Nat.exists_eq_add_of_lt enough
  have polled := waitFrom_of_reaches reached (more + 1)
  rw [concludes.waitFrom, waitFrom, Option.map_eq_some_iff] at polled
  rcases polled with ⟨whole, ran, rfl⟩
  exact ran

/-- What a wait uses up with each sample that succeeds, so that it runs out of it. -/
structure Spends (source : BacklogSource State) (timeout : Nat) (left : State → Nat) : Prop where
  sample {now : Nat} {state : State} {sample : BacklogSample}
    (success : (source.sample timeout now state).result = .ok sample) :
    left (source.sample timeout now state).state < left state
  sleepUntil (instant : Nat) (state : State) :
    left (source.sleepUntil instant state).2 ≤ left state

/-- From any stage that it reaches, a wait that uses something up comes to its last poll before it
has run out of it. -/
theorem Spends.exists_concludes {left : State → Nat}
    (spends : source.Spends settings.retryTimeout left) {state : State}
    (reached : source.Reaches settings cancellation state stage) :
    ∃ last run, source.Reaches settings cancellation state last ∧
      source.Concludes settings cancellation last run ∧
      last.samples.length ≤ stage.samples.length + left stage.state := by
  induction isLeft : left stage.state using Nat.strongRecOn generalizing stage with
  | ind supply ih =>
      rcases source.exists_pollsOn_or_concludes settings cancellation stage with
        ⟨next, polled⟩ | ⟨run, concludes⟩
      · have spent : left next.state < supply ∧
            next.samples.length = stage.samples.length + 1 := by
          cases polled with
          | slept inTime taken success busy undisturbed =>
              subst taken
              refine ⟨?_, by simp [sleepOn]⟩
              rw [← isLeft]
              exact Nat.lt_of_le_of_lt (spends.sleepUntil _ _) (spends.sample success)
        rcases ih (left next.state) spent.1 (reached.tail polled) rfl with
          ⟨last, run, reachedLast, concludes, within⟩
        refine ⟨last, run, reachedLast, concludes, ?_⟩
        omega
      · exact ⟨stage, run, reached, concludes, Nat.le_add_right _ _⟩

/-- Such a wait ends within as many polls, after the stages that it reaches. -/
theorem Spends.exists_run {left : State → Nat}
    (spends : source.Spends settings.retryTimeout left) (cancellation : Cancellation)
    (state : State) :
    ∃ stage run, source.Reaches settings cancellation state stage ∧
      source.Concludes settings cancellation stage run ∧
      source.pollFrom settings cancellation (left state + 1) 0 0 state = some run := by
  have start : source.Reaches settings cancellation state { state } := .refl
  rcases spends.exists_concludes start with ⟨stage, run, reached, concludes, within⟩
  refine ⟨stage, run, reached, concludes, pollFrom_of_reaches reached concludes ?_⟩
  rw [List.length_nil, Nat.zero_add] at within
  exact Nat.lt_succ_of_le within

end BacklogSource

end DataflowOps
