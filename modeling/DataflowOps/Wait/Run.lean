import DataflowOps.Event
import DataflowOps.Pause
import DataflowOps.Wait.Sample
import DataflowOps.Reply

/-!
# Waiting for quiescence

The wait samples the outstanding work until a sample is quiescent, and sleeps between samples for a
time that grows with the backlog. It ends early when a sample fails or when the operator cancels it;
a cancellation interrupts a sleep, but never a sample that has begun. Time is counted in
milliseconds since the wait began.
-/

namespace DataflowOps

/-- Where the wait takes its samples from, with the state that the calls act on. Sleeping lets other
clients act, and reports what they logged. -/
structure BacklogSource (State : Type) where
  readClock : State → Reply Timestamp × State
  countOutstanding : State → Reply Nat × State
  sleepUntil : (instant : Nat) → State → List Event × State

inductive Cancellation where
  | never
  | beforeStart
  | atInstant (instant : Nat)
  deriving DecidableEq, Repr

namespace Cancellation

/-- Whether the cancellation lies before `now`. One that falls on `now` is left to the sleep that
begins then. -/
def hasPassed (now : Nat) : Cancellation → Bool
  | never => false
  | beforeStart => true
  | atInstant instant => instant < now

/-- The instant at which the cancellation interrupts a sleep that would last until `wake`. -/
def interruption? (wake : Nat) : Cancellation → Option Nat
  | never => none
  | beforeStart => some 0
  | atInstant instant => if instant ≤ wake then some instant else none

end Cancellation

/-- How a wait ended without failing, with the number of completed polls. -/
inductive WaitEnd where
  | finished (polls : Nat)
  | cancelled (polls : Nat)
  deriving DecidableEq, Repr

structure WaitFailure where
  cause : CallFailure
  deriving DecidableEq, Repr

def WaitFailure.message (error : WaitFailure) : String :=
  "failed to sample outstanding work: " ++ error.cause.message

/-- The result of a round trip or of several, the instant at which it was there and the state left
behind. -/
structure Timed (Value State : Type) where
  result : Except CallFailure Value
  instant : Nat
  state : State

def Timed.receive {Value State : Type} (timeout now : Nat) (call : Reply Value × State) :
    Timed Value State :=
  let received := call.1.within timeout
  ⟨received.result, now + received.elapsed, call.2⟩

structure WaitRun (State : Type) where
  result : Except WaitFailure WaitEnd
  instant : Nat
  state : State
  events : List Event

namespace WaitRun

def after {State : Type} (events : List Event) (run : WaitRun State) : WaitRun State :=
  { run with events := events ++ run.events }

end WaitRun

namespace BacklogSource

variable {State : Type}

/-- Takes one sample: clock, count, clock. The first call that fails ends it. -/
def sample (source : BacklogSource State) (timeout now : Nat) (state : State) :
    Timed BacklogSample State :=
  let first := Timed.receive timeout now (source.readClock state)
  match first.result with
  | .error error => ⟨.error error, first.instant, first.state⟩
  | .ok before =>
    let second := Timed.receive timeout first.instant (source.countOutstanding first.state)
    match second.result with
    | .error error => ⟨.error error, second.instant, second.state⟩
    | .ok outstanding =>
      let third := Timed.receive timeout second.instant (source.readClock second.state)
      match third.result with
      | .error error => ⟨.error error, third.instant, third.state⟩
      | .ok after => ⟨.ok ⟨before, outstanding, after⟩, third.instant, third.state⟩

/-- Polls from `now` on, after `polls` polls that found work. There is no result when the wait is
still going on after `limit` more polls. -/
def pollFrom (source : BacklogSource State) (settings : Settings) (cancellation : Cancellation) :
    (limit polls now : Nat) → State → Option (WaitRun State)
  | 0, _, _, _ => none
  | limit + 1, polls, now, state =>
    if cancellation.hasPassed now then
      some ⟨.ok (.cancelled polls), now, state, [.waitCancelled polls]⟩
    else
      let sampled := source.sample settings.retryTimeout now state
      match sampled.result with
      | .error error =>
        some ⟨.error ⟨error⟩, sampled.instant, sampled.state, [.sampleFailed polls error]⟩
      | .ok sample =>
        match sample.verdictUnder settings with
        | .finished =>
          some ⟨.ok (.finished (polls + 1)), sampled.instant, sampled.state,
            [.processingFinished (polls + 1) sample.after]⟩
        | .pollAgain sleepSeconds =>
          let report :=
            Event.workOutstanding sample.outstanding sample.before sample.after sleepSeconds
          let wake := sampled.instant + Pause.elapsed (1000 * sleepSeconds)
          match cancellation.interruption? wake with
          | some instant =>
            let interrupted := max sampled.instant instant
            let (events, state) := source.sleepUntil interrupted sampled.state
            some ⟨.ok (.cancelled (polls + 1)), interrupted, state,
              report :: events ++ [.waitCancelled (polls + 1)]⟩
          | none =>
            let (events, state) := source.sleepUntil wake sampled.state
            (source.pollFrom settings cancellation limit (polls + 1) wake state).map
              (·.after (report :: events))

/-- Waits until the cluster is quiescent. There is no result when the wait is still going on after
`limit` polls. -/
def wait (source : BacklogSource State) (settings : Settings) (cancellation : Cancellation)
    (limit : Nat) (state : State) : Option (WaitRun State) :=
  (source.pollFrom settings cancellation limit 0 0 state).map
    (·.after [.waitStarted settings.workers])

end BacklogSource

end DataflowOps
