import Mathlib.Algebra.GroupWithZero.Nat
import DataflowOps.Proofs.WaitPolls
import DataflowOps.Wait.Script

/-!
# Waits on a script

The replies of a script are consumed in the order in which a wait calls, so that they determine
which poll is the last one, how it ends and how long everything takes. This file says so poll by
poll, without a loop, and shows that the wait does just that, whether it is cancelled or not. The
calls are observed by sources that record them.
-/

namespace DataflowOps

def Timed.onState {Value Finer State : Type} (shown : Finer → State) (timed : Timed Value Finer) :
    Timed Value State :=
  ⟨timed.result, timed.instant, shown timed.state⟩

def WaitRun.onState {Finer State : Type} (shown : Finer → State) (run : WaitRun Finer) :
    WaitRun State :=
  ⟨run.result, run.instant, shown run.state, run.events⟩

namespace BacklogSource

variable {Finer State : Type}

/-- A source whose states show those of another one, with the same replies and the same reports. -/
structure Refines (finer : BacklogSource Finer) (shown : Finer → State)
    (source : BacklogSource State) : Prop where
  readClock (state : Finer) : source.readClock (shown state) =
    ((finer.readClock state).1, shown (finer.readClock state).2)
  countOutstanding (state : Finer) : source.countOutstanding (shown state) =
    ((finer.countOutstanding state).1, shown (finer.countOutstanding state).2)
  sleepUntil (instant : Nat) (state : Finer) : source.sleepUntil instant (shown state) =
    ((finer.sleepUntil instant state).1, shown (finer.sleepUntil instant state).2)

variable {finer : BacklogSource Finer} {shown : Finer → State} {source : BacklogSource State}

theorem Refines.sample (refines : finer.Refines shown source) (timeout now : Nat)
    (state : Finer) :
    source.sample timeout now (shown state) = (finer.sample timeout now state).onState shown := by
  simp only [BacklogSource.sample, refines.readClock, Timed.receive]
  cases ((finer.readClock state).1.within timeout).result with
  | error error => rfl
  | ok before =>
      simp only [refines.countOutstanding]
      cases ((finer.countOutstanding (finer.readClock state).2).1.within timeout).result with
      | error error => rfl
      | ok outstanding =>
          simp only [refines.readClock]
          cases ((finer.readClock
              (finer.countOutstanding (finer.readClock state).2).2).1.within timeout).result with
          | error error => rfl
          | ok after => rfl

theorem Refines.pollFrom (refines : finer.Refines shown source) (settings : Settings)
    (cancellation : Cancellation) (limit polls now : Nat) (state : Finer) :
    source.pollFrom settings cancellation limit polls now (shown state) =
      (finer.pollFrom settings cancellation limit polls now state).map (·.onState shown) := by
  induction limit generalizing polls now state with
  | zero => rfl
  | succ limit ih =>
      simp only [BacklogSource.pollFrom, refines.sample]
      generalize finer.sample settings.retryTimeout now state = sampled
      simp only [Timed.onState]
      cases cancellation.hasPassed now with
      | true => rfl
      | false =>
          cases sampled.result with
          | error error => rfl
          | ok sample =>
              cases verdict : sample.verdictUnder settings with
              | finished =>
                  simp only [verdict]
                  rfl
              | pollAgain sleepSeconds =>
                  simp only [verdict, Bool.false_eq_true, if_false, refines.sleepUntil, ih]
                  split
                  · rfl
                  · simp only [Option.map_map]
                    rfl

theorem Refines.wait (refines : finer.Refines shown source) (settings : Settings)
    (cancellation : Cancellation) (limit : Nat) (state : Finer) :
    source.wait settings cancellation limit (shown state) =
      (finer.wait settings cancellation limit state).map (·.onState shown) := by
  simp only [BacklogSource.wait, refines.pollFrom, Option.map_map]
  rfl

end BacklogSource

/-- The calls of a sample. -/
inductive RoundTrip where
  | readClock
  | countOutstanding
  deriving DecidableEq

namespace BacklogSource

variable {State : Type}

/-- The source with a record of the calls made to it. -/
def recorded (source : BacklogSource State) : BacklogSource (State × List RoundTrip) where
  readClock state :=
    let (reply, next) := source.readClock state.1
    (reply, next, state.2 ++ [.readClock])
  countOutstanding state :=
    let (reply, next) := source.countOutstanding state.1
    (reply, next, state.2 ++ [.countOutstanding])
  sleepUntil instant state :=
    let (events, next) := source.sleepUntil instant state.1
    (events, next, state.2)

def unrecorded (run : WaitRun (State × List RoundTrip)) : WaitRun State :=
  ⟨run.result, run.instant, run.state.1, run.events⟩

end BacklogSource

/-- A call with the instants at which it was started and at which its outcome was there. -/
structure ObservedCall where
  call : RoundTrip
  started : Nat
  ended : Nat
  deriving DecidableEq

/-- Calls as they were observed up to an instant. -/
structure Logbook where
  now : Nat := 0
  calls : List ObservedCall := []
  deriving DecidableEq

def Logbook.add (call : RoundTrip) (duration : Nat) (logbook : Logbook) : Logbook :=
  ⟨logbook.now + duration, logbook.calls ++ [⟨call, logbook.now, logbook.now + duration⟩]⟩

def Logbook.kinds (logbook : Logbook) : List RoundTrip :=
  logbook.calls.map ObservedCall.call

namespace BacklogSource

variable {State : Type}

/-- The source with a logbook of the calls made to it by someone who waits for at most `timeout`
milliseconds. -/
def observed (timeout : Nat) (source : BacklogSource State) : BacklogSource (State × Logbook) where
  readClock state :=
    let (reply, next) := source.readClock state.1
    (reply, next, state.2.add .readClock (reply.within timeout).elapsed)
  countOutstanding state :=
    let (reply, next) := source.countOutstanding state.1
    (reply, next, state.2.add .countOutstanding (reply.within timeout).elapsed)
  sleepUntil instant state :=
    let (events, next) := source.sleepUntil instant state.1
    (events, next, { state.2 with now := instant })

theorem observed_refines (source : BacklogSource State) (timeout : Nat) :
    (source.observed timeout).Refines Prod.fst source :=
  ⟨fun _ => rfl, fun _ => rfl, fun _ _ => rfl⟩

theorem observed_refines_recorded (source : BacklogSource State) (timeout : Nat) :
    (source.observed timeout).Refines (Prod.map id Logbook.kinds) source.recorded := by
  constructor
  · intro state
    simp [observed, recorded, Logbook.add, Logbook.kinds]
  · intro state
    simp [observed, recorded, Logbook.add, Logbook.kinds]
  · intro instant state
    rfl

end BacklogSource

/-- A round trip that was started: whether it failed and how long it took. -/
structure Trip where
  call : RoundTrip
  failure : Option CallFailure
  duration : Nat

namespace Trip

def of {Value : Type} (call : RoundTrip) (timeout : Nat) (reply : Reply Value) : Trip where
  call := call
  failure :=
    match reply.outcome timeout with
    | .ok _ => none
    | .error error => some error
  duration := reply.duration timeout

/-- Of planned round trips, those that are started: none after the first one that fails. -/
def upToFailure : List Trip → List Trip
  | [] => []
  | trip :: rest => trip :: if trip.failure.isSome then [] else upToFailure rest

/-- Round trips made one right after the other, from an instant on. -/
def inSequence : (now : Nat) → List Trip → List ObservedCall
  | _, [] => []
  | now, trip :: rest =>
    ⟨trip.call, now, now + trip.duration⟩ :: inSequence (now + trip.duration) rest

theorem map_call_inSequence (now : Nat) (trips : List Trip) :
    (inSequence now trips).map ObservedCall.call = trips.map Trip.call := by
  induction trips generalizing now with
  | nil => rfl
  | cons trip rest ih => simp [inSequence, ih]

theorem started_of_mem_inSequence {now : Nat} {trips : List Trip} {call : ObservedCall}
    (member : call ∈ inSequence now trips) : now ≤ call.started := by
  induction trips generalizing now with
  | nil => simp [inSequence] at member
  | cons trip rest ih =>
      rcases List.mem_cons.1 member with rfl | member
      · exact Nat.le_refl _
      · exact Nat.le_trans (Nat.le_add_right _ _) (ih member)

end Trip

namespace BacklogScript

/-- The reply to a call of its kind, by the number of such calls before. -/
def replyAt {Value : Type} (replies : List (Reply Value)) (index : Nat) : Reply Value :=
  replies[index]?.getD (.immediate (.error usedUp))

/-- The sample of a poll, by the number of polls before. -/
def sampleAt (script : BacklogScript) (timeout poll : Nat) : Except CallFailure BacklogSample := do
  let before ← (replyAt script.clock (2 * poll)).outcome timeout
  let outstanding ← (replyAt script.count poll).outcome timeout
  let after ← (replyAt script.clock (2 * poll + 1)).outcome timeout
  return ⟨before, outstanding, after⟩

/-- The round trips started by a poll. -/
def tripsAt (script : BacklogScript) (timeout poll : Nat) : List Trip :=
  Trip.upToFailure
    [.of .readClock timeout (replyAt script.clock (2 * poll)),
      .of .countOutstanding timeout (replyAt script.count poll),
      .of .readClock timeout (replyAt script.clock (2 * poll + 1))]

/-- What is left of the script once calls have been made. -/
def afterCalls (script : BacklogScript) (calls : List RoundTrip) : BacklogScript :=
  ⟨script.clock.drop (calls.count .readClock), script.count.drop (calls.count .countOutstanding)⟩

theorem answer_drop {Value : Type} (replies : List (Reply Value)) (index : Nat) :
    answer (replies.drop index) = (replyAt replies index, replies.drop (index + 1)) := by
  by_cases inside : index < replies.length
  · rw [List.drop_eq_getElem_cons inside]
    simp [answer, replyAt, inside]
  · have outside : replies.length ≤ index := Nat.le_of_not_lt inside
    simp [List.drop_eq_nil_of_le outside, List.drop_eq_nil_of_le (Nat.le_succ_of_le outside),
      answer, replyAt, outside]

theorem replyAt_delay_le {Value : Type} {replies : List (Reply Value)} {bound : Nat}
    (short : ∀ reply ∈ replies, reply.delay ≤ bound) (index : Nat) :
    (replyAt replies index).delay ≤ bound := by
  by_cases inside : index < replies.length
  · simpa [replyAt, inside] using short _ (List.getElem_mem inside)
  · simp [replyAt, Nat.le_of_not_lt inside, Reply.immediate]

/-- The script and the logbook after some calls. -/
def stateAfter (script : BacklogScript) (now : Nat) (calls : List ObservedCall) :
    BacklogScript × Logbook :=
  (script.afterCalls (calls.map ObservedCall.call), ⟨now, calls⟩)

variable {script : BacklogScript} {timeout now : Nat}

section Observed

variable {poll : Nat} {calls : List ObservedCall}

theorem receive_observed_readClock
    (short : ∀ reply ∈ script.clock, reply.delay ≤ Pause.longest) :
    Timed.receive timeout now ((source.observed timeout).readClock (script.stateAfter now calls)) =
      let reply := replyAt script.clock ((calls.map ObservedCall.call).count .readClock)
      ⟨reply.outcome timeout, now + reply.duration timeout,
        script.stateAfter (now + reply.duration timeout)
          (calls ++ [⟨.readClock, now, now + reply.duration timeout⟩])⟩ := by
  simp only [Timed.receive, BacklogSource.observed, source, stateAfter, afterCalls, answer_drop,
    Reply.within_of_delay_le (replyAt_delay_le short _), Logbook.add]
  simp

theorem receive_observed_countOutstanding
    (short : ∀ reply ∈ script.count, reply.delay ≤ Pause.longest) :
    Timed.receive timeout now
        ((source.observed timeout).countOutstanding (script.stateAfter now calls)) =
      let reply := replyAt script.count ((calls.map ObservedCall.call).count .countOutstanding)
      ⟨reply.outcome timeout, now + reply.duration timeout,
        script.stateAfter (now + reply.duration timeout)
          (calls ++ [⟨.countOutstanding, now, now + reply.duration timeout⟩])⟩ := by
  simp only [Timed.receive, BacklogSource.observed, source, stateAfter, afterCalls, answer_drop,
    Reply.within_of_delay_le (replyAt_delay_le short _), Logbook.add]
  simp

/-- A sample is what the script says about its poll, and it starts the round trips of that poll one
right after the other. -/
theorem sample_observed (timeout now : Nat)
    (shortClock : ∀ reply ∈ script.clock, reply.delay ≤ Pause.longest)
    (shortCount : ∀ reply ∈ script.count, reply.delay ≤ Pause.longest)
    (clocks : (calls.map ObservedCall.call).count .readClock = 2 * poll)
    (counts : (calls.map ObservedCall.call).count .countOutstanding = poll) :
    (source.observed timeout).sample timeout now (script.stateAfter now calls) =
      ⟨script.sampleAt timeout poll,
        now + ((script.tripsAt timeout poll).map Trip.duration).sum,
        script.stateAfter (now + ((script.tripsAt timeout poll).map Trip.duration).sum)
          (calls ++ Trip.inSequence now (script.tripsAt timeout poll))⟩ := by
  simp only [BacklogSource.sample, receive_observed_readClock shortClock,
    receive_observed_countOutstanding shortCount, List.map_append, List.map_cons, List.map_nil,
    List.count_append, clocks, counts, List.count_cons, List.count_nil, sampleAt, tripsAt,
    Trip.upToFailure]
  cases first : (replyAt script.clock (2 * poll)).outcome timeout with
  | error error => simp [Trip.of, Trip.inSequence, first, bind, Except.bind]
  | ok before =>
      cases second : (replyAt script.count poll).outcome timeout with
      | error error =>
          simp [Trip.of, Trip.inSequence, first, second, bind, Except.bind, Nat.add_assoc]
      | ok outstanding =>
          cases third : (replyAt script.clock (2 * poll + 1)).outcome timeout with
          | error error =>
              simp [Trip.of, Trip.inSequence, first, second, third, bind, Except.bind,
                Nat.add_assoc]
          | ok after =>
              simp [Trip.of, Trip.inSequence, first, second, third, bind, Except.bind, pure,
                Except.pure, Nat.add_assoc]

end Observed

theorem map_call_tripsAt {poll : Nat} {sample : BacklogSample}
    (succeeded : script.sampleAt timeout poll = .ok sample) :
    (script.tripsAt timeout poll).map Trip.call =
      [.readClock, .countOutstanding, .readClock] := by
  rcases CallFailure.bind_eq_ok_iff.1 succeeded with ⟨before, first, succeeded⟩
  rcases CallFailure.bind_eq_ok_iff.1 succeeded with ⟨outstanding, second, succeeded⟩
  rcases CallFailure.bind_eq_ok_iff.1 succeeded with ⟨after, third, _⟩
  simp [tripsAt, Trip.upToFailure, Trip.of, first, second, third]

/-- Whether a poll finds work, so that another one follows. -/
def findsWork (script : BacklogScript) (settings : Settings) (poll : Nat) : Prop :=
  ∃ sample, script.sampleAt settings.retryTimeout poll = .ok sample ∧
    ¬ (sample.outstanding = 0 ∧
      sample.after.ticks.toNat = sample.before.ticks.toNat + settings.clockReadTicks)

instance (script : BacklogScript) (settings : Settings) (poll : Nat) :
    Decidable (script.findsWork settings poll) :=
  match outcome : script.sampleAt settings.retryTimeout poll with
  | .ok sample =>
    decidable_of_iff (¬ (sample.outstanding = 0 ∧
        sample.after.ticks.toNat = sample.before.ticks.toNat + settings.clockReadTicks))
      ⟨fun busy => ⟨sample, outcome, busy⟩, fun ⟨_, same, busy⟩ =>
        Except.ok.inj (outcome.symm.trans same) ▸ busy⟩
  | .error _ => isFalse fun ⟨_, same, _⟩ => nomatch outcome.symm.trans same

def sleepAfter (script : BacklogScript) (settings : Settings) (poll : Nat) : Nat :=
  match script.sampleAt settings.retryTimeout poll with
  | .ok sample =>
    1000 * settings.sleepPolicy.sleepSeconds sample.outstanding settings.workers
  | .error _ => 0

/-- How a wait ends whose last poll has a number of polls before it. -/
def resultAt (script : BacklogScript) (settings : Settings) (poll : Nat) :
    Except WaitFailure WaitEnd :=
  match script.sampleAt settings.retryTimeout poll with
  | .ok _ => .ok (.finished (poll + 1))
  | .error error => .error ⟨error⟩

def tripsOf (script : BacklogScript) (settings : Settings) (polls : List Nat) : List Trip :=
  polls.flatMap (script.tripsAt settings.retryTimeout)

def sleepOf (script : BacklogScript) (settings : Settings) (polls : List Nat) : Nat :=
  (polls.map (script.sleepAfter settings)).sum

variable {settings : Settings} {poll : Nat}

theorem findsWork_iff {sample : BacklogSample}
    (outcome : script.sampleAt settings.retryTimeout poll = .ok sample) :
    script.findsWork settings poll ↔ sample.showsQuiescence settings.clockReadTicks = false := by
  rw [← Bool.not_eq_true, BacklogSample.showsQuiescence_iff]
  constructor
  · rintro ⟨found, same, busy⟩
    obtain rfl : sample = found := Except.ok.inj (outcome.symm.trans same)
    exact busy
  · exact fun busy => ⟨sample, outcome, busy⟩

theorem not_findsWork_of_error {error : CallFailure}
    (outcome : script.sampleAt settings.retryTimeout poll = .error error) :
    ¬ script.findsWork settings poll := by
  rintro ⟨sample, same, _⟩
  cases outcome.symm.trans same

/-- The instant at which a poll begins as long as the wait is not cancelled. -/
def pollStart (script : BacklogScript) (settings : Settings) : (poll : Nat) → Nat
  | 0 => 0
  | poll + 1 => script.pollStart settings poll +
      ((script.tripsAt settings.retryTimeout poll).map Trip.duration).sum +
        script.sleepAfter settings poll

/-- The instant at which the sample of a poll has been taken or has failed. -/
def sampleEnd (script : BacklogScript) (settings : Settings) (poll : Nat) : Nat :=
  script.pollStart settings poll +
    ((script.tripsAt settings.retryTimeout poll).map Trip.duration).sum

theorem sampleEnd_eq (script : BacklogScript) (settings : Settings) (poll : Nat) :
    script.sampleEnd settings poll =
      ((script.tripsOf settings (List.range (poll + 1))).map Trip.duration).sum +
        script.sleepOf settings (List.range poll) := by
  induction poll with
  | zero => simp [sampleEnd, pollStart, tripsOf, sleepOf]
  | succ poll ih =>
      have start : script.pollStart settings (poll + 1) =
          script.sampleEnd settings poll + script.sleepAfter settings poll := rfl
      rw [sampleEnd, start, ih]
      simp only [tripsOf, sleepOf, List.range_succ, List.flatMap_append, List.map_append,
        List.sum_append, List.flatMap_singleton, List.map_singleton, List.sum_singleton]
      omega

/-- The sleep after a poll that finds work lasts until the next poll. -/
theorem wake_sampleEnd {sample : BacklogSample}
    (shortSleep : 1000 * settings.sleepPolicy.maximum ≤ Pause.longest)
    (outcome : script.sampleAt settings.retryTimeout poll = .ok sample) :
    BacklogSource.wake settings sample (script.sampleEnd settings poll) =
      script.pollStart settings (poll + 1) := by
  have bounded := settings.sleepPolicy.sleepSeconds_le_maximum sample.outstanding settings.workers
  rw [BacklogSource.wake, Pause.elapsed_of_le_longest (by omega), pollStart, sleepAfter, outcome,
    sampleEnd]

/-- The calls of the first polls, as they are observed. -/
def callsBefore (script : BacklogScript) (settings : Settings) (polls : Nat) :
    List ObservedCall :=
  (List.range polls).flatMap fun poll =>
    Trip.inSequence (script.pollStart settings poll) (script.tripsAt settings.retryTimeout poll)

theorem callsBefore_succ (script : BacklogScript) (settings : Settings) (polls : Nat) :
    script.callsBefore settings (polls + 1) = script.callsBefore settings polls ++
      Trip.inSequence (script.pollStart settings polls)
        (script.tripsAt settings.retryTimeout polls) := by
  simp [callsBefore, List.range_succ]

theorem map_call_callsBefore (script : BacklogScript) (settings : Settings) (polls : Nat) :
    (script.callsBefore settings polls).map ObservedCall.call =
      (script.tripsOf settings (List.range polls)).map Trip.call := by
  simp only [callsBefore, tripsOf, List.map_flatMap, Trip.map_call_inSequence]

/-- Polls that find work make two clock reads and one count each. -/
theorem count_callsBefore (goesOn : ∀ earlier < poll, script.findsWork settings earlier) :
    ((script.callsBefore settings poll).map ObservedCall.call).count .readClock = 2 * poll ∧
      ((script.callsBefore settings poll).map ObservedCall.call).count .countOutstanding =
        poll := by
  induction poll with
  | zero => simp [callsBefore]
  | succ poll ih =>
      rcases ih fun earlier before => goesOn earlier (Nat.lt_succ_of_lt before) with
        ⟨clocks, counts⟩
      rcases goesOn poll (Nat.lt_succ_self poll) with ⟨sample, outcome, _⟩
      rw [callsBefore_succ, List.map_append, Trip.map_call_inSequence, map_call_tripsAt outcome,
        List.count_append, List.count_append, clocks, counts]
      constructor
      · simp
        omega
      · simp

/-- What a wait reports when a poll finds work. -/
def report? (script : BacklogScript) (settings : Settings) (poll : Nat) : Option Event :=
  match script.sampleAt settings.retryTimeout poll with
  | .ok sample => some (BacklogSource.report settings sample)
  | .error _ => none

theorem report?_of_ok {sample : BacklogSample}
    (outcome : script.sampleAt settings.retryTimeout poll = .ok sample) :
    script.report? settings poll = some (BacklogSource.report settings sample) := by
  simp only [report?, outcome]

/-- The last report of a wait whose last poll has a number of polls before it. -/
def conclusion (script : BacklogScript) (settings : Settings) (poll : Nat) : Event :=
  match script.sampleAt settings.retryTimeout poll with
  | .ok sample => .processingFinished (poll + 1) sample.after
  | .error error => .sampleFailed poll error

/-- Whether a wait ends with a poll: one that finds work is the last one only if the sleep after it
is interrupted. -/
def endsWith (script : BacklogScript) (settings : Settings) (cancellation : Cancellation)
    (poll : Nat) : Prop :=
  script.findsWork settings poll →
    (cancellation.interruption? (script.pollStart settings (poll + 1))).isSome = true

theorem endsWith_never_iff :
    script.endsWith settings .never poll ↔ ¬ script.findsWork settings poll := by
  simp [endsWith, Cancellation.interruption?]

/-- The instant at which such a wait is over. -/
def endInstant (script : BacklogScript) (settings : Settings) (cancellation : Cancellation)
    (poll : Nat) : Nat :=
  if script.findsWork settings poll then
    max (script.sampleEnd settings poll)
      ((cancellation.interruption? (script.pollStart settings (poll + 1))).getD 0)
  else script.sampleEnd settings poll

/-- The wait whose last poll has a number of polls before it. -/
def runUpTo (script : BacklogScript) (settings : Settings) (cancellation : Cancellation)
    (last : Nat) : WaitRun (BacklogScript × Logbook) where
  result :=
    if script.findsWork settings last then .ok (.cancelled (last + 1))
    else script.resultAt settings last
  instant := script.endInstant settings cancellation last
  state := script.stateAfter (script.endInstant settings cancellation last)
    (script.callsBefore settings (last + 1))
  events := (List.range last).filterMap (script.report? settings) ++
    if script.findsWork settings last then
      (script.report? settings last).toList ++ [.waitCancelled (last + 1)]
    else [script.conclusion settings last]

/-- That an observed wait in progress is where the script says, with none of its polls the last
one. -/
structure OnSchedule (script : BacklogScript) (settings : Settings) (cancellation : Cancellation)
    (stage : WaitStage (BacklogScript × Logbook)) : Prop where
  goesOn : ∀ earlier < stage.samples.length, ¬ script.endsWith settings cancellation earlier
  inTime : cancellation.hasPassed stage.instant = false
  instant : stage.instant = script.pollStart settings stage.samples.length
  state : stage.state =
    script.stateAfter stage.instant (script.callsBefore settings stage.samples.length)
  events : stage.events = (List.range stage.samples.length).filterMap (script.report? settings)

section Schedule

variable {cancellation : Cancellation} {stage next : WaitStage (BacklogScript × Logbook)}
  (shortClock : ∀ reply ∈ script.clock, reply.delay ≤ Pause.longest)
  (shortCount : ∀ reply ∈ script.count, reply.delay ≤ Pause.longest)
  (shortSleep : 1000 * settings.sleepPolicy.maximum ≤ Pause.longest)

include shortClock shortCount

theorem OnSchedule.sample (scheduled : script.OnSchedule settings cancellation stage) :
    (source.observed settings.retryTimeout).sample settings.retryTimeout stage.instant
        stage.state =
      ⟨script.sampleAt settings.retryTimeout stage.samples.length,
        script.sampleEnd settings stage.samples.length,
        script.stateAfter (script.sampleEnd settings stage.samples.length)
          (script.callsBefore settings (stage.samples.length + 1))⟩ := by
  have goesOn (earlier : Nat) (before : earlier < stage.samples.length) :
      script.findsWork settings earlier :=
    (Classical.not_imp.1 (scheduled.goesOn earlier before)).1
  rcases count_callsBefore goesOn with ⟨clocks, counts⟩
  rw [scheduled.state, sample_observed _ _ shortClock shortCount clocks counts, scheduled.instant,
    callsBefore_succ]
  rfl

include shortSleep

/-- A poll after which the wait goes on takes it to the next one. -/
theorem OnSchedule.pollsOn (scheduled : script.OnSchedule settings cancellation stage)
    (polled : (source.observed settings.retryTimeout).PollsOn settings cancellation stage next) :
    script.OnSchedule settings cancellation next := by
  cases polled with
  | @slept _ sample inTime taken success busy undisturbed =>
      rw [scheduled.sample shortClock shortCount] at taken
      subst taken
      have works := (findsWork_iff success).2 busy
      have reported := report?_of_ok success
      simp only [wake_sampleEnd shortSleep success] at undisturbed ⊢
      constructor
      case goesOn =>
        intro earlier before
        simp only [BacklogSource.sleepOn, List.length_append, List.length_singleton] at before
        rcases Nat.lt_succ_iff_lt_or_eq.1 before with before | rfl
        · exact scheduled.goesOn earlier before
        · intro last
          have interrupted := last works
          rw [undisturbed] at interrupted
          cases interrupted
      case inTime => exact Cancellation.hasPassed_of_interruption?_eq_none undisturbed
      case instant => simp [BacklogSource.sleepOn]
      case state => simp [BacklogSource.sleepOn, BacklogSource.observed, source, stateAfter]
      case events =>
        simp [BacklogSource.sleepOn, BacklogSource.observed, source, scheduled.events,
          List.range_succ, reported]

/-- The last poll of the wait is the one with which it ends by the script. -/
theorem OnSchedule.concludes {run : WaitRun (BacklogScript × Logbook)}
    (scheduled : script.OnSchedule settings cancellation stage)
    (concludes : (source.observed settings.retryTimeout).Concludes settings cancellation stage
      run) :
    script.endsWith settings cancellation stage.samples.length ∧
      run = script.runUpTo settings cancellation stage.samples.length := by
  cases concludes with
  | cancelled passed =>
      rw [scheduled.inTime] at passed
      cases passed
  | failed inTime taken failure =>
      rw [scheduled.sample shortClock shortCount] at taken
      subst taken
      have quiet := not_findsWork_of_error failure
      refine ⟨fun works => absurd works quiet, ?_⟩
      simp only at failure
      simp [runUpTo, quiet, endInstant, resultAt, conclusion, failure, scheduled.events]
  | finished inTime taken success shows =>
      rw [scheduled.sample shortClock shortCount] at taken
      subst taken
      have quiet : ¬ script.findsWork settings stage.samples.length := by
        rw [findsWork_iff success, shows]
        simp
      refine ⟨fun works => absurd works quiet, ?_⟩
      simp only at success
      simp [runUpTo, quiet, endInstant, resultAt, conclusion, success, scheduled.events]
  | interrupted inTime taken success busy interrupted slept =>
      rw [scheduled.sample shortClock shortCount] at taken
      subst taken slept
      have works := (findsWork_iff success).2 busy
      rw [wake_sampleEnd shortSleep success] at interrupted
      refine ⟨fun _ => Option.isSome_of_eq_some interrupted, ?_⟩
      simp [runUpTo, works, endInstant, interrupted, report?_of_ok success, scheduled.events,
        BacklogSource.sleepOn, BacklogSource.observed, source, stateAfter]

/-- Wherever a wait on a script gets, it is where the script says. -/
theorem onSchedule_of_reaches (inTime : cancellation.hasPassed 0 = false)
    (reached : (source.observed settings.retryTimeout).Reaches settings cancellation (script, {})
      stage) :
    script.OnSchedule settings cancellation stage := by
  induction reached with
  | refl => exact ⟨nofun, inTime, rfl, rfl, rfl⟩
  | tail _ polled ih => exact ih.pollsOn shortClock shortCount shortSleep polled

end Schedule

/-- A clock read that succeeds has used up a reply. -/
theorem length_clock_of_readClock {reading : Timestamp}
    (success : ((source.readClock script).1.within timeout).result = .ok reading) :
    (source.readClock script).2.clock.length + 1 = script.clock.length := by
  obtain ⟨clock, count⟩ := script
  cases clock with
  | nil => simp [source, answer] at success
  | cons reply rest => rfl

/-- A sample that succeeds has used up replies to clock reads. -/
theorem length_clock_of_sample {sample : BacklogSample}
    (success : (source.sample timeout now script).result = .ok sample) :
    (source.sample timeout now script).state.clock.length < script.clock.length := by
  rcases BacklogSource.of_sample_eq_ok success with ⟨first, third, left⟩
  have firstSpent := length_clock_of_readClock first
  have secondSpent := length_clock_of_readClock third
  have kept : (source.countOutstanding (source.readClock script).2).2.clock =
      (source.readClock script).2.clock := rfl
  rw [left]
  rw [kept] at secondSpent
  omega

section Supply

variable {Finer : Type} {finer : BacklogSource Finer} {shown : Finer → BacklogScript}

/-- Whoever waits on a script runs out of its replies to clock reads. -/
theorem spends_clock (refines : finer.Refines shown source) (timeout : Nat) :
    finer.Spends timeout fun state => (shown state).clock.length := by
  constructor
  case sample =>
    intro now state sample success
    have same := refines.sample timeout now state
    have shownSuccess : (source.sample timeout now (shown state)).result = .ok sample := by
      rw [same]
      exact success
    have spent := length_clock_of_sample shownSuccess
    rw [same] at spent
    exact spent
  case sleepUntil =>
    intro instant state
    have same := congrArg Prod.snd (refines.sleepUntil instant state)
    exact Nat.le_of_eq (congrArg (·.clock.length) same.symm)

/-- A wait on a script ends within as many polls as it may take. -/
theorem exists_run (refines : finer.Refines shown source) (settings : Settings)
    (cancellation : Cancellation) (state : Finer) :
    ∃ stage run, finer.Reaches settings cancellation state stage ∧
      finer.Concludes settings cancellation stage run ∧
      finer.pollFrom settings cancellation (shown state).pollLimit 0 0 state = some run :=
  (spends_clock refines settings.retryTimeout).exists_run cancellation state

end Supply

/-- The wait on a script with a logbook of its calls. -/
def observedWait (settings : Settings) (cancellation : Cancellation) (script : BacklogScript) :
    Option (WaitRun (BacklogScript × Logbook)) :=
  (source.observed settings.retryTimeout).wait settings cancellation script.pollLimit (script, {})

theorem wait_eq_observedWait (settings : Settings) (cancellation : Cancellation)
    (script : BacklogScript) :
    script.wait settings cancellation =
      (script.observedWait settings cancellation).map (·.onState Prod.fst) :=
  (BacklogSource.observed_refines source settings.retryTimeout).wait settings cancellation
    script.pollLimit (script, {})

/-- A wait on a script is the one that the script determines, up to the first poll with which it
ends. -/
theorem observedWait_eq (cancellation : Cancellation)
    (shortClock : ∀ reply ∈ script.clock, reply.delay ≤ Pause.longest)
    (shortCount : ∀ reply ∈ script.count, reply.delay ≤ Pause.longest)
    (shortSleep : 1000 * settings.sleepPolicy.maximum ≤ Pause.longest)
    (inTime : cancellation.hasPassed 0 = false) :
    ∃ polls, (∀ earlier < polls, ¬ script.endsWith settings cancellation earlier) ∧
      script.endsWith settings cancellation polls ∧
      script.observedWait settings cancellation =
        some ((script.runUpTo settings cancellation polls).after
          [.waitStarted settings.workers]) := by
  rcases exists_run (source.observed_refines settings.retryTimeout) settings cancellation
    (script, {}) with ⟨stage, run, reached, concludes, polled⟩
  have scheduled := onSchedule_of_reaches shortClock shortCount shortSleep inTime reached
  rcases scheduled.concludes shortClock shortCount shortSleep concludes with ⟨last, rfl⟩
  refine ⟨stage.samples.length, scheduled.goesOn, last, ?_⟩
  rw [observedWait, BacklogSource.wait, polled, Option.map_some]

/-- A wait on a script, never cancelled, does what the script says poll by poll. It polls until a
poll fails or shows quiescence, its calls are the round trips of these polls in their order, each
of them uses up one reply of its kind, and it takes as long as these round trips and the sleeps
between the polls. -/
theorem wait_follows_script (settings : Settings) (script : BacklogScript)
    (shortClock : ∀ reply ∈ script.clock, reply.delay ≤ Pause.longest)
    (shortCount : ∀ reply ∈ script.count, reply.delay ≤ Pause.longest)
    (shortSleep : 1000 * settings.sleepPolicy.maximum ≤ Pause.longest) :
    ∃ polls run, script.wait settings .never = some run ∧
      (∀ earlier < polls, script.findsWork settings earlier) ∧
      ¬ script.findsWork settings polls ∧
      run.result = script.resultAt settings polls ∧
      run.instant =
        ((script.tripsOf settings (List.range (polls + 1))).map Trip.duration).sum +
          script.sleepOf settings (List.range polls) ∧
      run.state = script.afterCalls
        ((script.tripsOf settings (List.range (polls + 1))).map Trip.call) ∧
      ∃ recordedRun,
        source.recorded.wait settings .never script.pollLimit (script, []) = some recordedRun ∧
          BacklogSource.unrecorded recordedRun = run ∧
          recordedRun.state.2 =
            (script.tripsOf settings (List.range (polls + 1))).map Trip.call := by
  rcases observedWait_eq .never shortClock shortCount shortSleep rfl with
    ⟨polls, goesOn, ends, waited⟩
  simp only [endsWith_never_iff, Classical.not_not] at goesOn ends
  have recorded := (source.observed_refines_recorded settings.retryTimeout).wait settings .never
    script.pollLimit (script, {})
  rw [← observedWait, waited] at recorded
  have calls := script.map_call_callsBefore settings (polls + 1)
  refine ⟨polls, _, by rw [wait_eq_observedWait, waited]; rfl, goesOn, ends, if_neg ends, ?_, ?_,
    _, recorded, rfl, calls⟩
  · rw [← sampleEnd_eq]
    exact if_neg ends
  · rw [← calls]
    rfl

/-- A backlog of 5000 notifications that is gone at the second poll, which nearly takes too long. -/
def drainedBacklog : BacklogScript where
  clock := [.immediate (.ok ⟨1⟩), ⟨100, some (.ok ⟨2⟩)⟩, .immediate (.ok ⟨5⟩),
    ⟨499, some (.ok ⟨6⟩)⟩, ⟨0, none⟩]
  count := [.immediate (.ok 5000), ⟨7, some (.ok 0)⟩]

theorem wait_follows_drainedBacklog :
    ∃ settings : Settings,
      (∀ reply ∈ drainedBacklog.clock, reply.delay ≤ Pause.longest) ∧
      (∀ reply ∈ drainedBacklog.count, reply.delay ≤ Pause.longest) ∧
      1000 * settings.sleepPolicy.maximum ≤ Pause.longest ∧
      ∃ run, drainedBacklog.wait settings .never = some run ∧
        run.result = .ok (.finished 2) ∧ run.instant = 100 + 50000 + 7 + 499 := by
  refine ⟨⟨"flow", ⟨1, by decide⟩, 500, .standard, 1⟩, by decide, by decide, by decide, ?_⟩
  rcases wait_follows_script ⟨"flow", ⟨1, by decide⟩, 500, .standard, 1⟩ drainedBacklog (by decide)
    (by decide) (by decide) with ⟨polls, run, ran, goesOn, ends, result, instant, _⟩
  have second : polls = 1 := by
    rcases Nat.lt_trichotomy polls 1 with before | same | after
    · obtain rfl : polls = 0 := by omega
      exact absurd (by decide) ends
    · exact same
    · exact absurd (goesOn 1 after) (by decide)
  subst second
  exact ⟨run, ran, result, instant⟩

end BacklogScript

end DataflowOps
