import Mathlib.Data.Nat.Find
import DataflowOps.Command.Wait
import DataflowOps.Proofs.PollTimeline

/-!
# The wait command on a cluster that others visit

The command ends with the first poll that is not followed by another one: when that poll finds the
engine offline, when it finds that all work is done, or when the wait is cancelled in the sleep
after it. A wait without such a poll never ends.
-/

namespace DataflowOps.AttendedCluster

variable {settings : Settings} {cancellation : Cancellation} {visits : List Visit} {poll : Poll}

/-- The wait on a cluster that others visit with a logbook of its calls. -/
def observedWait (settings : Settings) (cancellation : Cancellation) (visits : List Visit)
    (start : Cluster) : Option (WaitRun (AttendedCluster × Logbook)) :=
  (source.observed settings.retryTimeout).wait settings cancellation
    (pollLimit cancellation visits) (⟨start, Visit.inOrder visits, []⟩, {})

theorem wait_eq_observedWait (settings : Settings) (cancellation : Cancellation)
    (visits : List Visit) (start : Cluster) :
    wait settings cancellation visits start =
      (observedWait settings cancellation visits start).map (·.onState Prod.fst) :=
  (BacklogSource.observed_refines source settings.retryTimeout).wait settings cancellation
    (pollLimit cancellation visits) (⟨start, Visit.inOrder visits, []⟩, {})

/-- How the wait command ends: its exit status, the instant, the cluster left behind, the bytes
printed to its error output and the calls made. -/
structure CommandEnding where
  exit : ExitStatus
  instant : Nat
  cluster : Cluster
  printed : Bytes
  calls : List ObservedCall

/-- What the command prints when a poll finds the engine offline. -/
def offlineReport : String :=
  "Wait failed - failed to sample outstanding work: engine unavailable: memory engine is offline\n"

/-- That the wait command ends in a given way. The calls are those of the same wait with a
logbook. -/
def CommandEndsWith (settings : Settings) (cancellation : Cancellation) (visits : List Visit)
    (start : Cluster) (errors : OutputPipe) (last : CommandEnding) : Prop :=
  ∃ run observed, WaitCommand.run settings cancellation visits start errors = some run ∧
    observedWait settings cancellation visits start = some observed ∧
    run.result = .ok last.exit ∧ run.instant = last.instant ∧ run.cluster = last.cluster ∧
    run.errors = { errors with written := errors.written ++ last.printed } ∧
    observed.state.2.calls = last.calls

section Command

variable {start : Cluster} {errors : OutputPipe} {last : Nat}
  (shortest : 1 ≤ settings.sleepPolicy.minimum)
  (short : 1000 * settings.sleepPolicy.maximum ≤ Pause.longest)
  (later : ∀ visit ∈ visits, 0 < visit.instant)
  (reached : Reached settings cancellation visits start last)

include shortest short later reached

/-- The command ends with the first poll that is not followed by another one. -/
theorem commandEndsWith_of_concludes {exit : ExitStatus} {result : Except WaitFailure WaitEnd}
    {instant : Nat} {cluster : Cluster} {printed : Bytes} {calls : List ObservedCall}
    (isLast : ¬ (pollAt settings visits start last).GoesOn settings cancellation visits)
    (ends : ∀ stage, AtPoll settings visits start last stage →
      cancellation.hasPassed (pollAt settings visits start last).instant = false →
        ∃ run, (source.observed settings.retryTimeout).Concludes settings cancellation stage run ∧
          ending run = ⟨result, instant, cluster, calls⟩)
    (concluded : WaitCommand.conclude errors result =
      (.ok exit, { errors with written := errors.written ++ printed })) :
    CommandEndsWith settings cancellation visits start errors
      ⟨exit, instant, cluster, printed, calls⟩ := by
  -- A wait that got as far as the limit would go on forever, so its last poll is within the limit.
  have enough : last < pollLimit cancellation visits := by
    apply Nat.lt_of_not_le
    intro more
    apply isLast
    apply goesOn_of_pollLimit shortest
    refine ⟨reached.started, ?_⟩
    intro index within
    exact reached.goesOn index (Nat.lt_of_lt_of_le within more)
  rcases reached.exists_stage short later with ⟨stage, reaches, atPoll⟩
  rcases ends stage atPoll reached.hasPassed_eq_false with ⟨run, concludes, shown⟩
  rw [← atPoll.length_samples] at enough
  have polledRun := BacklogSource.pollFrom_of_reaches reaches concludes enough
  simp only [ending, Ending.mk.injEq] at shown
  rcases shown with ⟨rfl, rfl, rfl, rfl⟩
  have observed : observedWait settings cancellation visits start =
      some (run.after [.waitStarted settings.workers]) := by
    rw [observedWait, BacklogSource.wait, polledRun]
    rfl
  have waited := wait_eq_observedWait settings cancellation visits start
  rw [observed, Option.map_some] at waited
  refine ⟨_, _, by rw [WaitCommand.run, waited]; rfl, observed, ?_⟩
  refine ⟨congrArg Prod.fst concluded, rfl, rfl, congrArg Prod.snd concluded, rfl⟩

theorem commandEndsWith_of_offline (unlimited : errors.room = none)
    (offline : (pollAt settings visits start last).found.engine.available = false) :
    CommandEndsWith settings cancellation visits start errors
      ⟨.engineFailure, (pollAt settings visits start last).instant,
        (pollAt settings visits start last).found,
        Utf8.encode offlineReport,
        callsBefore settings visits start last ++
          [⟨.readClock, (pollAt settings visits start last).instant,
            (pollAt settings visits start last).instant⟩]⟩ := by
  apply commandEndsWith_of_concludes shortest short later reached
  case isLast =>
    intro on
    simp [on.available] at offline
  case ends =>
    intro stage atPoll inTime
    exact atPoll.concludes_of_offline inTime offline
  case concluded =>
    simp only [WaitCommand.conclude, ExitStatus.report, OutputPipe.writeLine, OutputPipe.write,
      unlimited]
    rfl

theorem commandEndsWith_of_quiet
    (available : (pollAt settings visits start last).found.engine.available = true)
    (quiet : (pollAt settings visits start last).Quiet settings)
    (room : (pollAt settings visits start last).found.HasRoomFor Poll.operations) :
    CommandEndsWith settings cancellation visits start errors
      ⟨.success, (pollAt settings visits start last).instant,
        (pollAt settings visits start last).sampled, [],
        callsBefore settings visits start (last + 1)⟩ := by
  apply commandEndsWith_of_concludes shortest short later reached
  case isLast =>
    intro on
    exact on.busy quiet
  case ends =>
    intro stage atPoll inTime
    exact atPoll.concludes_of_quiet inTime available quiet room
  case concluded => simp [WaitCommand.conclude]

theorem commandEndsWith_of_cancelled {instant : Nat}
    (cancelled : cancellation = .atInstant instant)
    (available : (pollAt settings visits start last).found.engine.available = true)
    (busy : ¬ (pollAt settings visits start last).Quiet settings)
    (asleep : instant ≤ (pollAt settings visits start (last + 1)).instant) :
    CommandEndsWith settings cancellation visits start errors
      ⟨.cancelled, instant, (pollAt settings visits start last).visitedUntil visits instant, [],
        callsBefore settings visits start (last + 1)⟩ := by
  subst cancelled
  apply commandEndsWith_of_concludes shortest short later reached
  case isLast =>
    intro on
    have interrupted : (Cancellation.atInstant instant).interruption?
        ((pollAt settings visits start last).next settings visits).instant = some instant :=
      if_pos asleep
    rw [on.undisturbed] at interrupted
    cases interrupted
  case ends =>
    intro stage atPoll inTime
    apply atPoll.concludes_of_cancelled short _ available busy asleep
    simpa [Cancellation.hasPassed] using inTime
  case concluded => simp [WaitCommand.conclude]

end Command

/-- A wait that is cancelled before it starts calls nothing. -/
theorem commandEndsWith_of_beforeStart (settings : Settings) (visits : List Visit)
    (start : Cluster) (errors : OutputPipe) :
    CommandEndsWith settings .beforeStart visits start errors ⟨.cancelled, 0, start, [], []⟩ := by
  refine ⟨_, _, rfl, rfl, rfl, rfl, rfl, ?_, rfl⟩
  rw [List.append_nil]
  rfl

/-- How the wait command follows the polls: it ends with the first one that is not followed by
another one, and in which way depends on what this one finds. -/
structure FollowsPolls (settings : Settings) (cancellation : Cancellation) (visits : List Visit)
    (start : Cluster) (errors : OutputPipe) : Prop where
  beforeStart : cancellation = .beforeStart →
    CommandEndsWith settings cancellation visits start errors ⟨.cancelled, 0, start, [], []⟩
  polls : ∀ index, Reached settings cancellation visits start index → ∀ limit, ∃ answers,
    ((source.observed settings.retryTimeout).pollFrom settings cancellation (index + limit) 0 0
        (⟨start, Visit.inOrder visits, []⟩, {})).map ending =
      ((source.observed settings.retryTimeout).pollFrom settings cancellation limit index
        (pollAt settings visits start index).instant
        (standing visits (pollAt settings visits start index) answers
          (callsBefore settings visits start index))).map ending
  ticks : ∀ index, (pollAt settings visits start index).found.engine.available = true →
    (pollAt settings visits start index).found.HasRoomFor Poll.operations →
      (pollAt settings visits start index).sampled.engine.clock.ticks.toNat =
        (pollAt settings visits start index).found.engine.clock.ticks.toNat + 2
  offline : ∀ last, Reached settings cancellation visits start last →
    (pollAt settings visits start last).found.engine.available = false →
      CommandEndsWith settings cancellation visits start errors
        ⟨.engineFailure, (pollAt settings visits start last).instant,
          (pollAt settings visits start last).found, Utf8.encode offlineReport,
          callsBefore settings visits start last ++
            [⟨.readClock, (pollAt settings visits start last).instant,
              (pollAt settings visits start last).instant⟩]⟩
  quiet : ∀ last, Reached settings cancellation visits start last →
    (pollAt settings visits start last).found.engine.available = true →
    (pollAt settings visits start last).Quiet settings →
    (pollAt settings visits start last).found.HasRoomFor Poll.operations →
      CommandEndsWith settings cancellation visits start errors
        ⟨.success, (pollAt settings visits start last).instant,
          (pollAt settings visits start last).sampled, [],
          callsBefore settings visits start (last + 1)⟩
  cancelled : ∀ last instant, Reached settings cancellation visits start last →
    (pollAt settings visits start last).found.engine.available = true →
    ¬ (pollAt settings visits start last).Quiet settings →
    cancellation = .atInstant instant →
    instant ≤ (pollAt settings visits start (last + 1)).instant →
      CommandEndsWith settings cancellation visits start errors
        ⟨.cancelled, instant, (pollAt settings visits start last).visitedUntil visits instant, [],
          callsBefore settings visits start (last + 1)⟩
  endless : (∀ index, (pollAt settings visits start index).GoesOn settings cancellation visits) →
    WaitCommand.run settings cancellation visits start errors = none ∧
      ∀ limit, source.wait settings cancellation limit ⟨start, Visit.inOrder visits, []⟩ = none
  success : ∀ run, WaitCommand.run settings cancellation visits start errors = some run →
    run.result = .ok .success → settings.clockReadTicks = 1

section Command

variable {start : Cluster} {errors : OutputPipe}

theorem CommandEndsWith.result {last : CommandEnding} {run : WaitCommand.Run}
    (ends : CommandEndsWith settings cancellation visits start errors last)
    (ran : WaitCommand.run settings cancellation visits start errors = some run) :
    run.result = .ok last.exit := by
  rcases ends with ⟨ended, _, endedRun, _, result, _⟩
  rw [ran] at endedRun
  cases endedRun
  exact result

theorem wait_eq_none_of_all_goesOn (short : 1000 * settings.sleepPolicy.maximum ≤ Pause.longest)
    (later : ∀ visit ∈ visits, 0 < visit.instant)
    (goesOn : ∀ index,
      (pollAt settings visits start index).GoesOn settings cancellation visits) (limit : Nat) :
    source.wait settings cancellation limit ⟨start, Visit.inOrder visits, []⟩ = none := by
  have reached : Reached settings cancellation visits start limit :=
    ⟨(goesOn 0).started, fun index _ => goesOn index⟩
  rcases pollFrom_of_reached short later reached 0 with ⟨answers, polled⟩
  have refined := (BacklogSource.observed_refines source settings.retryTimeout).wait settings
    cancellation limit (⟨start, Visit.inOrder visits, []⟩, {})
  have ended : ((source.observed settings.retryTimeout).pollFrom settings cancellation
      (limit + 0) 0 0 (⟨start, Visit.inOrder visits, []⟩, {})).map ending = none := polled
  rw [Option.map_eq_none_iff, Nat.add_zero] at ended
  rw [refined, BacklogSource.wait, ended]
  rfl

/-- A wait that does not go on forever has a first poll with which it does not go on. -/
theorem exists_last_poll (started : cancellation ≠ .beforeStart) (ends : ¬ ∀ index,
      (pollAt settings visits start index).GoesOn settings cancellation visits) :
    ∃ last, Reached settings cancellation visits start last ∧
      ¬ (pollAt settings visits start last).GoesOn settings cancellation visits := by
  classical
  have someLast : ∃ index,
      ¬ (pollAt settings visits start index).GoesOn settings cancellation visits :=
    Classical.not_forall.1 ends
  refine ⟨Nat.find someLast, ⟨started, ?_⟩, Nat.find_spec someLast⟩
  intro earlier before
  exact Classical.not_not.1 (Nat.find_min someLast before)

/-- Only a cancellation keeps a busy wait from going on. -/
theorem Poll.exists_cancellation (started : cancellation ≠ .beforeStart)
    (isLast : ¬ poll.GoesOn settings cancellation visits)
    (available : poll.found.engine.available = true) (busy : ¬ poll.Quiet settings) :
    ∃ instant, cancellation = .atInstant instant ∧
      instant ≤ (poll.next settings visits).instant := by
  have interrupted : cancellation.interruption? (poll.next settings visits).instant ≠ none := by
    intro undisturbed
    exact isLast ⟨available, busy, undisturbed⟩
  cases cancellation with
  | never => exact absurd rfl interrupted
  | beforeStart => exact absurd rfl started
  | atInstant instant =>
      refine ⟨instant, rfl, ?_⟩
      simpa [Cancellation.interruption?] using interrupted

theorem clockReadTicks_eq_one_of_success (shortest : 1 ≤ settings.sleepPolicy.minimum)
    (short : 1000 * settings.sleepPolicy.maximum ≤ Pause.longest)
    (later : ∀ visit ∈ visits, 0 < visit.instant) (unlimited : errors.room = none)
    {run : WaitCommand.Run}
    (ran : WaitCommand.run settings cancellation visits start errors = some run)
    (succeeded : run.result = .ok .success) : settings.clockReadTicks = 1 := by
  apply Classical.byContradiction
  intro otherwise
  have started : cancellation ≠ .beforeStart := by
    rintro rfl
    rw [(commandEndsWith_of_beforeStart settings visits start errors).result ran] at succeeded
    cases succeeded
  by_cases endless : ∀ index,
      (pollAt settings visits start index).GoesOn settings cancellation visits
  · rw [WaitCommand.run, wait, wait_eq_none_of_all_goesOn short later endless] at ran
    cases ran
  · rcases exists_last_poll started endless with ⟨last, reached, isLast⟩
    cases available : (pollAt settings visits start last).found.engine.available with
    | false =>
        have ends := commandEndsWith_of_offline shortest short later reached unlimited available
        rw [ends.result ran] at succeeded
        cases succeeded
    | true =>
        have busy : ¬ (pollAt settings visits start last).Quiet settings :=
          fun quiet => otherwise quiet.1
        rcases Poll.exists_cancellation started isLast available busy with
          ⟨instant, cancelled, asleep⟩
        have ends : CommandEndsWith settings cancellation visits start errors _ :=
          commandEndsWith_of_cancelled shortest short later reached cancelled available busy
            asleep
        rw [ends.result ran] at succeeded
        cases succeeded

end Command

/-- The wait command polls at the instants that the backlog determines, and ends with the first
poll that finds the engine offline, finds that all work is done, or sleeps when the wait is
cancelled. -/
theorem wait_follows_polls (settings : Settings) (cancellation : Cancellation)
    (visits : List Visit) (start : Cluster) (errors : OutputPipe)
    (shortest : 1 ≤ settings.sleepPolicy.minimum)
    (longest : settings.sleepPolicy.maximum < 365 * 24 * 60 * 60)
    (later : ∀ visit ∈ visits, 0 < visit.instant) (unlimited : errors.room = none) :
    FollowsPolls settings cancellation visits start errors := by
  have short : 1000 * settings.sleepPolicy.maximum ≤ Pause.longest := by
    simp only [Pause.longest]
    omega
  constructor
  case beforeStart =>
    rintro rfl
    exact commandEndsWith_of_beforeStart settings visits start errors
  case polls =>
    intro index reached limit
    exact pollFrom_of_reached short later reached limit
  case ticks =>
    intro index available room
    exact clock_sampled available room
  case offline =>
    intro last reached offline
    exact commandEndsWith_of_offline shortest short later reached unlimited offline
  case quiet =>
    intro last reached available quiet room
    exact commandEndsWith_of_quiet shortest short later reached available quiet room
  case cancelled =>
    intro last instant reached available busy cancelled asleep
    exact commandEndsWith_of_cancelled shortest short later reached cancelled available busy
      asleep
  case endless =>
    intro goesOn
    have never := wait_eq_none_of_all_goesOn short later goesOn
    refine ⟨?_, never⟩
    rw [WaitCommand.run, wait, never]
    rfl
  case success =>
    intro run ran succeeded
    exact clockReadTicks_eq_one_of_success shortest short later unlimited ran succeeded

def briefSleeps : Settings :=
  ⟨"flow", ⟨1, Nat.one_pos⟩, 500, ⟨1, 5, SleepPolicy.defaultRate, by decide⟩, 1⟩

def raisedWork : Cluster :=
  (Cluster.fresh.perform (.commit [.notify ⟨[1], ⟨[10], []⟩⟩])).2

/-- Another client that acknowledges the work half a second after the wait begins. -/
def acknowledgement : List Visit :=
  [⟨500, [.commit [.acknowledge ⟨[1], ⟨[10], []⟩⟩]]⟩]

theorem wait_follows_polls_acknowledgement :
    1 ≤ briefSleeps.sleepPolicy.minimum ∧ briefSleeps.sleepPolicy.maximum < 365 * 24 * 60 * 60 ∧
      (∀ visit ∈ acknowledgement, 0 < visit.instant) ∧ ({} : OutputPipe).room = none ∧
      ∃ run, WaitCommand.run briefSleeps .never acknowledgement raisedWork {} = some run ∧
        run.result = .ok .success ∧ run.instant = 1000 ∧
        run.cluster.engine.clock.ticks.toNat = 6 := by
  refine ⟨by decide, by decide, by decide, rfl, ?_⟩
  have follows := wait_follows_polls briefSleeps .never acknowledgement raisedWork {} (by decide)
    (by decide) (by decide) rfl
  have reached : Reached briefSleeps .never acknowledgement raisedWork 1 := by
    refine ⟨by decide, ?_⟩
    intro earlier first
    cases Nat.lt_one_iff.1 first
    exact ⟨rfl, by decide, rfl⟩
  rcases follows.quiet 1 reached rfl ⟨rfl, rfl⟩ (by decide) with
    ⟨run, _, ran, _, result, instant, cluster, _⟩
  refine ⟨run, ran, result, instant, ?_⟩
  rw [cluster]
  rfl

end DataflowOps.AttendedCluster
