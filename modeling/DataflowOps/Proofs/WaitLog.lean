import DataflowOps.Proofs.ScriptedWait

/-!
# Logs of waits

A wait hears a reply in each of its calls, and its log is told from these replies alone: one line
for each sample that finds work, and a last line that agrees with what the wait returns. The replies
are taken down by a source that overhears them. Nothing here depends on how long a call or a sleep
takes.
-/

namespace DataflowOps

/-- What a wait hears in one of its calls. -/
inductive Heard where
  | clock (result : Except CallFailure Timestamp)
  | count (result : Except CallFailure Nat)

namespace Heard

/-- What is heard in a sample that succeeds. -/
def ofSample (sample : BacklogSample) : List Heard :=
  [.clock (.ok sample.before), .count (.ok sample.outstanding), .clock (.ok sample.after)]

/-- What is heard in a sample that fails: the calls up to the first one that fails. -/
inductive Fails (error : CallFailure) : List Heard → Prop where
  | atFirstClock : Fails error [.clock (.error error)]
  | atCount (before : Timestamp) : Fails error [.clock (.ok before), .count (.error error)]
  | atSecondClock (before : Timestamp) (outstanding : Nat) :
    Fails error [.clock (.ok before), .count (.ok outstanding), .clock (.error error)]

/-- What is heard in a sample, by its result. -/
def InSample (heard : List Heard) : Except CallFailure BacklogSample → Prop
  | .ok sample => heard = ofSample sample
  | .error error => Fails error heard

end Heard

namespace BacklogSource

variable {State : Type}

/-- The source with a record of what someone hears from it who waits for at most `timeout`
milliseconds. -/
def overheard (timeout : Nat) (source : BacklogSource State) :
    BacklogSource (State × List Heard) where
  readClock state :=
    let (reply, next) := source.readClock state.1
    (reply, next, state.2 ++ [.clock (reply.within timeout).result])
  countOutstanding state :=
    let (reply, next) := source.countOutstanding state.1
    (reply, next, state.2 ++ [.count (reply.within timeout).result])
  sleepUntil instant state :=
    let (events, next) := source.sleepUntil instant state.1
    (events, next, state.2)

theorem overheard_refines (source : BacklogSource State) (timeout : Nat) :
    (source.overheard timeout).Refines Prod.fst source :=
  ⟨fun _ => rfl, fun _ => rfl, fun _ _ => rfl⟩

/-- A source whose sleeps let nobody else report. -/
def Silent (source : BacklogSource State) : Prop :=
  ∀ instant state, (source.sleepUntil instant state).1 = []

theorem sample_overheard (source : BacklogSource State) (timeout now : Nat)
    (state : State × List Heard) :
    ∃ heard,
      Heard.InSample heard ((source.overheard timeout).sample timeout now state).result ∧
      ((source.overheard timeout).sample timeout now state).state.2 = state.2 ++ heard := by
  simp only [sample, Timed.receive, overheard]
  cases ((source.readClock state.1).1.within timeout).result with
  | error error => exact ⟨_, .atFirstClock, rfl⟩
  | ok before =>
      generalize (source.readClock state.1).2 = counted
      dsimp only
      cases ((source.countOutstanding counted).1.within timeout).result with
      | error error => exact ⟨_, .atCount before, by simp⟩
      | ok outstanding =>
          generalize (source.countOutstanding counted).2 = reread
          dsimp only
          cases ((source.readClock reread).1.within timeout).result with
          | error error => exact ⟨_, .atSecondClock before outstanding, by simp⟩
          | ok after => exact ⟨_, rfl, by simp [Heard.ofSample]⟩

end BacklogSource

namespace WaitLog

/-- The first line. -/
def started (settings : Settings) : LogLine where
  severity := .info
  component := "quiescence"
  name := "wait_started"
  fields := [("workers", .number settings.workers)]
  message? := some "the wait will exit when all notifications are processed"

/-- The line for a sample that finds work. -/
def foundWork (settings : Settings) (sample : BacklogSample) : LogLine :=
  let sleepSeconds := settings.sleepPolicy.sleepSeconds sample.outstanding settings.workers
  { severity := .info
    component := "quiescence"
    name := "work_outstanding"
    fields :=
      [("outstanding", .number sample.outstanding), ("clock_before", .text sample.before.text),
        ("clock_after", .text sample.after.text), ("sleep_secs", .number sleepSeconds)]
    message? := some (toString sample.outstanding ++
      " notifications are still outstanding, will try again in " ++ toString sleepSeconds ++
      " seconds") }

def finished (polls : Nat) (clock : Timestamp) : LogLine where
  severity := .info
  component := "quiescence"
  name := "processing_finished"
  fields := [("polls", .number polls), ("clock", .text clock.text)]
  message? := some "all processing has finished"

def cancelled (polls : Nat) : LogLine where
  severity := .warning
  component := "quiescence"
  name := "wait_cancelled"
  fields := [("polls", .number polls)]
  message? := none

def failed (polls : Nat) (error : CallFailure) : LogLine where
  severity := .error
  component := "quiescence"
  name := "sample_failed"
  fields := [("polls", .number polls), ("error", .text error.message)]
  message? := none

/-- How a wait ends after a number of polls that found work: what it hears in the sample it takes
then, if it takes one, what it returns and its last line. -/
inductive Closes (settings : Settings) (polls : Nat) :
    (heard : List Heard) → Except WaitFailure WaitEnd → LogLine → Prop where
  | finished {last : BacklogSample} (quiet : last.showsQuiescence settings.clockReadTicks = true) :
    Closes settings polls (Heard.ofSample last) (.ok (.finished (polls + 1)))
      (finished (polls + 1) last.after)
  | cancelled : Closes settings polls [] (.ok (.cancelled polls)) (cancelled polls)
  | failed {heard : List Heard} {error : CallFailure} (fails : Heard.Fails error heard) :
    Closes settings polls heard (.error ⟨error⟩) (failed polls error)

/-- Only the lines for samples that find work have their name. -/
theorem Closes.countP_lines {settings : Settings} {polls : Nat} {rest : List Heard}
    {result : Except WaitFailure WaitEnd} {closing : LogLine}
    (closes : Closes settings polls rest result closing) (busy : List BacklogSample) :
    (started settings :: busy.map (foundWork settings) ++ [closing]).countP
      (fun line => line.name = "work_outstanding") = busy.length := by
  have all : ∀ line ∈ busy.map (foundWork settings),
      decide (line.name = "work_outstanding") = true := by
    intro line member
    rcases List.mem_map.1 member with ⟨sample, _, rfl⟩
    rfl
  have last : decide (closing.name = "work_outstanding") = false := by
    cases closes <;> rfl
  have first : decide ((started settings).name = "work_outstanding") = false := rfl
  simp only [List.cons_append, List.countP_cons, List.countP_append, List.countP_nil, first, last,
    List.countP_eq_length.2 all, List.length_map]
  simp

/-- What the log of a wait tells: it hears the samples `busy`, which find work, then `rest`, and
ends. -/
structure Tells (settings : Settings) (busy : List BacklogSample) (rest : List Heard)
    (closing : LogLine) {State : Type} (run : WaitRun (State × List Heard)) : Prop where
  work : ∀ sample ∈ busy, sample.showsQuiescence settings.clockReadTicks = false
  heard : run.state.2 = busy.flatMap Heard.ofSample ++ rest
  closes : Closes settings busy.length rest run.result closing
  lines : run.events.map Event.line = busy.map (foundWork settings) ++ [closing]

theorem line_report (settings : Settings) (sample : BacklogSample) :
    (BacklogSource.report settings sample).line = foundWork settings sample := by
  have text : " notifications are still outstanding, will try again in " =
      " notifications are still outstanding, " ++ "will try again in " := by decide
  simp only [BacklogSource.report, foundWork, Event.line, Event.severity, Event.component,
    Event.name, Event.fields, Event.message?, toString, text, String.append_assoc]

section Stages

variable {State : Type} {source : BacklogSource State} {settings : Settings}
  {cancellation : Cancellation} {stage next : WaitStage (State × List Heard)}

/-- That a wait in progress has heard nothing but the samples it has taken, all of which found work,
and has reported each of them. -/
structure Traced (settings : Settings) (stage : WaitStage (State × List Heard)) : Prop where
  work : ∀ sample ∈ stage.samples, sample.showsQuiescence settings.clockReadTicks = false
  heard : stage.state.2 = stage.samples.flatMap Heard.ofSample
  lines : stage.events.map Event.line = stage.samples.map (foundWork settings)

/-- One more sample that finds work is one more line. -/
theorem Traced.sleepOn (traced : Traced settings stage) (silent : source.Silent)
    {sample : BacklogSample} (busy : sample.showsQuiescence settings.clockReadTicks = false)
    {state : State × List Heard} (added : state.2 = stage.state.2 ++ Heard.ofSample sample)
    (instant : Nat) :
    Traced settings
      ((source.overheard settings.retryTimeout).sleepOn settings sample instant state stage) := by
  have slept : ((source.overheard settings.retryTimeout).sleepUntil instant state).1 = [] :=
    silent instant state.1
  constructor
  case work =>
    intro other member
    rcases List.mem_append.1 member with member | member
    · exact traced.work other member
    · rw [List.mem_singleton.1 member]
      exact busy
  case heard =>
    have kept : ((source.overheard settings.retryTimeout).sleepUntil instant state).2.2 =
        state.2 := rfl
    simp [BacklogSource.sleepOn, kept, added, traced.heard]
  case lines => simp [BacklogSource.sleepOn, slept, traced.lines, line_report]

theorem Traced.tells_cancelled (traced : Traced settings stage) :
    Tells settings stage.samples [] (cancelled stage.samples.length)
      ⟨.ok (.cancelled stage.samples.length), stage.instant, stage.state,
        stage.events ++ [.waitCancelled stage.samples.length]⟩ := by
  refine ⟨traced.work, ?_, .cancelled, ?_⟩
  · rw [List.append_nil]
    exact traced.heard
  · rw [List.map_append, traced.lines]
    rfl

/-- The log of a wait that is traced up to its last poll tells how it ends. -/
theorem Traced.exists_tells (traced : Traced settings stage) (silent : source.Silent)
    {run : WaitRun (State × List Heard)}
    (concludes : (source.overheard settings.retryTimeout).Concludes settings cancellation stage
      run) :
    ∃ busy rest closing, Tells settings busy rest closing run := by
  rcases source.sample_overheard settings.retryTimeout stage.instant stage.state with
    ⟨heard, inSample, added⟩
  cases concludes with
  | cancelled passed => exact ⟨stage.samples, [], _, traced.tells_cancelled⟩
  | failed inTime taken failure =>
      subst taken
      rw [failure] at inSample
      refine ⟨stage.samples, heard, _, traced.work, ?_, .failed inSample, ?_⟩
      · rw [added, traced.heard]
      · rw [List.map_append, traced.lines]
        rfl
  | finished inTime taken success quiet =>
      subst taken
      rw [success] at inSample
      subst inSample
      refine ⟨stage.samples, _, _, traced.work, ?_, .finished quiet, ?_⟩
      · rw [added, traced.heard]
      · rw [List.map_append, traced.lines]
        rfl
  | interrupted inTime taken success busy interrupted slept =>
      subst taken slept
      rw [success] at inSample
      subst inSample
      exact ⟨_, [], _, (traced.sleepOn silent busy added _).tells_cancelled⟩

theorem Traced.pollsOn (traced : Traced settings stage) (silent : source.Silent)
    (polled : (source.overheard settings.retryTimeout).PollsOn settings cancellation stage next) :
    Traced settings next := by
  rcases source.sample_overheard settings.retryTimeout stage.instant stage.state with
    ⟨heard, inSample, added⟩
  cases polled with
  | slept inTime taken success busy undisturbed =>
      subst taken
      rw [success] at inSample
      subst inSample
      exact traced.sleepOn silent busy added _

theorem traced_of_reaches (silent : source.Silent) {state : State}
    (reached : (source.overheard settings.retryTimeout).Reaches settings cancellation (state, [])
      stage) : Traced settings stage := by
  induction reached with
  | refl => exact ⟨nofun, rfl, rfl⟩
  | tail _ polled ih => exact ih.pollsOn silent polled

end Stages

end WaitLog

namespace BacklogScript

theorem silent_source : source.Silent := fun _ _ => rfl

/-- The log of a wait on a script is a faithful trace of what the wait hears. It begins with a line
that names the workers, has one line for each sample that finds work, with what was heard in it and
the sleep that follows, and closes with one line that agrees with the result. -/
theorem wait_log_tells_samples (settings : Settings) (cancellation : Cancellation)
    (script : BacklogScript) :
    ∃ (busy : List BacklogSample) (rest : List Heard) (closing : LogLine)
      (run : WaitRun (BacklogScript × List Heard)),
      (source.overheard settings.retryTimeout).wait settings cancellation script.pollLimit
        (script, []) = some run ∧
      script.wait settings cancellation = some (run.onState Prod.fst) ∧
      run.state.2 = busy.flatMap Heard.ofSample ++ rest ∧
      (∀ sample ∈ busy, sample.showsQuiescence settings.clockReadTicks = false) ∧
      WaitLog.Closes settings busy.length rest run.result closing ∧
      run.events.map Event.line =
        WaitLog.started settings :: busy.map (WaitLog.foundWork settings) ++ [closing] ∧
      (run.events.map Event.line).countP (fun line => line.name = "work_outstanding") =
        busy.length := by
  have refines := source.overheard_refines settings.retryTimeout
  rcases exists_run refines settings cancellation (script, []) with
    ⟨stage, run, reached, concludes, polled⟩
  have traced := WaitLog.traced_of_reaches silent_source reached
  rcases traced.exists_tells silent_source concludes with ⟨busy, rest, closing, told⟩
  have waited : (source.overheard settings.retryTimeout).wait settings cancellation
      script.pollLimit (script, []) = some (run.after [.waitStarted settings.workers]) := by
    rw [BacklogSource.wait, polled, Option.map_some]
  have lines : (run.after [.waitStarted settings.workers]).events.map Event.line =
      WaitLog.started settings :: busy.map (WaitLog.foundWork settings) ++ [closing] := by
    simp only [WaitRun.after, List.map_append, told.lines]
    rfl
  refine ⟨busy, rest, closing, _, waited, ?_, told.heard, told.work, told.closes, lines, ?_⟩
  · have shown := refines.wait settings cancellation script.pollLimit (script, [])
    rw [waited] at shown
    exact shown
  · rw [lines]
    exact told.closes.countP_lines busy

/-- A wait whose first sample finds work and whose second one finds none. -/
example :
    let settings : Settings := ⟨"flow", ⟨1, Nat.one_pos⟩, 500, .standard, 1⟩
    let script : BacklogScript :=
      ⟨[.immediate (.ok ⟨1⟩), .immediate (.ok ⟨2⟩), .immediate (.ok ⟨5⟩), .immediate (.ok ⟨6⟩)],
        [.immediate (.ok 5000), .immediate (.ok 0)]⟩
    (script.wait settings .never).map (·.events.map Event.line) =
      some [WaitLog.started settings, WaitLog.foundWork settings ⟨⟨1⟩, 5000, ⟨2⟩⟩,
        WaitLog.finished 2 ⟨6⟩] := by
  rfl

end BacklogScript

end DataflowOps
