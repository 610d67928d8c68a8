import Mathlib.Algebra.GroupWithZero.Nat
import DataflowOps.Scan.Script

/-!
# Scans of a script

A script and a timeout determine the round trips of a scan: they are made row by row, and the
columns of a row come before the next row. A scan makes them one after the other, offers each entry
as soon as it is there, and stops at the first round trip that fails or the first entry that is
refused. The calls are observed by a system that records them.
-/

namespace DataflowOps

def ScanRun.onState {Finer State : Type} (shown : Finer → State) (run : ScanRun Finer) :
    ScanRun State :=
  ⟨run.result, run.elapsed, shown run.state, run.events⟩

theorem ScanRun.map_after_nil {State : Type} (run : Option (ScanRun State)) :
    run.map (·.after []) = run := by
  cases run <;> rfl

/-- The calls of a scan. -/
inductive ScanCall where
  | openView
  | fetchRow
  | fetchColumn
  | offer (entry : Entry)
  | closeView
  deriving DecidableEq

namespace ScanSystem

variable {State : Type}

/-- The system with a record of the calls made to it. -/
def recorded (system : ScanSystem State) : ScanSystem (State × List ScanCall) where
  openView query state :=
    let (reply, next) := system.openView query state.1
    (reply, next, state.2 ++ [.openView])
  fetchRow state :=
    let (reply, next) := system.fetchRow state.1
    (reply, next, state.2 ++ [.fetchRow])
  fetchColumn state :=
    let (reply, next) := system.fetchColumn state.1
    (reply, next, state.2 ++ [.fetchColumn])
  accept entry state :=
    let (delivery, next) := system.accept entry state.1
    (delivery, next, state.2 ++ [.offer entry])
  closeView state := (system.closeView state.1, state.2 ++ [.closeView])

theorem fetchFrom_of_recorded (system : ScanSystem State) (timeout limit : Nat)
    (row : Option Bytes) (progress : ScanProgress) (state : State × List ScanCall) :
    system.fetchFrom timeout limit row progress state.1 =
      (system.recorded.fetchFrom timeout limit row progress state).map (·.onState Prod.fst) := by
  induction limit generalizing row progress state with
  | zero => rfl
  | succ limit ih =>
      cases row with
      | none =>
          have call : system.recorded.fetchRow state = ((system.fetchRow state.1).1,
            (system.fetchRow state.1).2, state.2 ++ [.fetchRow]) := rfl
          simp only [fetchFrom, call]
          cases ((system.fetchRow state.1).1.within timeout).result with
          | error error => rfl
          | ok found =>
              cases found with
              | none => rfl
              | some row => exact ih _ _ ((system.fetchRow state.1).2, _)
      | some row =>
          have call : system.recorded.fetchColumn state = ((system.fetchColumn state.1).1,
            (system.fetchColumn state.1).2, state.2 ++ [.fetchColumn]) := rfl
          simp only [fetchFrom, call]
          generalize (system.fetchColumn state.1).2 = next
          cases ((system.fetchColumn state.1).1.within timeout).result with
          | error error => rfl
          | ok found =>
              cases found with
              | none => exact ih _ _ (next, _)
              | some cell =>
                  have offer (calls : List ScanCall) :
                      system.recorded.accept ⟨row, cell.1, cell.2⟩ (next, calls) =
                        ((system.accept ⟨row, cell.1, cell.2⟩ next).1,
                          (system.accept ⟨row, cell.1, cell.2⟩ next).2,
                          calls ++ [.offer ⟨row, cell.1, cell.2⟩]) := rfl
                  simp only [offer]
                  split
                  · rw [ih _ _ ((system.accept ⟨row, cell.1, cell.2⟩ next).2, _), Option.map_map,
                      Option.map_map]
                    rfl
                  · rfl

/-- Recording the calls changes nothing else. -/
theorem scan_of_recorded (system : ScanSystem State) (timeout limit : Nat) (query : Query)
    (state : State) :
    system.scan timeout limit query state =
      (system.recorded.scan timeout limit query (state, [])).map (·.onState Prod.fst) := by
  have call : system.recorded.openView query (state, []) = ((system.openView query state).1,
    (system.openView query state).2, [.openView]) := rfl
  simp only [scan, call]
  cases ((system.openView query state).1.within timeout).result with
  | error error => rfl
  | ok opened =>
      rw [fetchFrom_of_recorded system timeout limit none _ ((system.openView query state).2, _),
        Option.map_map, Option.map_map]
      rfl

end ScanSystem

/-- A round trip as a script answers it: whether it fails, how long it takes and what it yields. -/
structure ScanStep where
  call : ScanCall
  failure : Option CallFailure := none
  duration : Nat := 0
  entersRow : Bool := false
  entry : Option Entry := none

namespace ScanStep

def of {Value : Type} (call : ScanCall) (timeout : Nat) (reply : Reply Value) : ScanStep where
  call := call
  failure :=
    match reply.outcome timeout with
    | .ok _ => none
    | .error error => some error
  duration := reply.duration timeout

def ofColumn (timeout : Nat) (row : Bytes) (reply : Reply (Column × Bytes)) : ScanStep :=
  { of .fetchColumn timeout reply with
    entry := (reply.outcome timeout).toOption.map fun cell => ⟨row, cell.1, cell.2⟩ }

def ofRow (timeout : Nat) (reply : Reply Bytes) : ScanStep :=
  { of .fetchRow timeout reply with entersRow := (reply.outcome timeout).isOk }

theorem ofColumn_of_ok {timeout : Nat} {reply : Reply (Column × Bytes)} {cell : Column × Bytes}
    (row : Bytes) (outcome : reply.outcome timeout = .ok cell) :
    (ofColumn timeout row reply).failure = none ∧
      (ofColumn timeout row reply).entry = some ⟨row, cell.1, cell.2⟩ := by
  simp [ofColumn, of, outcome, Except.toOption]

theorem ofColumn_of_error {timeout : Nat} {reply : Reply (Column × Bytes)} {error : CallFailure}
    (row : Bytes) (outcome : reply.outcome timeout = .error error) :
    (ofColumn timeout row reply).failure = some error ∧
      (ofColumn timeout row reply).entry = none := by
  simp [ofColumn, of, outcome, Except.toOption]

/-- The fetch that finds that a row or the sequence of rows has ended. -/
def atEnd (call : ScanCall) : ScanStep := { call }

/-- The round trip and the offer of what it yields. -/
def calls (step : ScanStep) : List ScanCall :=
  step.call :: step.entry.toList.map .offer

end ScanStep

namespace ScanScript

/-- The round trips inside a row: those of its columns and that of its end. -/
def columnSteps (timeout : Nat) (row : Bytes) (columns : List (Reply (Column × Bytes))) :
    List ScanStep :=
  columns.map (.ofColumn timeout row) ++ [.atEnd .fetchColumn]

/-- The round trips of a row; nothing is fetched from one that cannot be entered. -/
def rowSteps (timeout : Nat) (row : RowScript) : List ScanStep :=
  .ofRow timeout row.reply ::
    match row.reply.outcome timeout with
    | .ok key => columnSteps timeout key row.columns
    | .error _ => []

def stepsOfRows (timeout : Nat) (rows : List RowScript) : List ScanStep :=
  rows.flatMap (rowSteps timeout) ++ [.atEnd .fetchRow]

/-- The round trips of a scan that nothing stops. -/
def plan (timeout : Nat) (script : ScanScript) : List ScanStep :=
  .of .openView timeout script.opening :: stepsOfRows timeout script.rows

def entriesOf (steps : List ScanStep) : List Entry :=
  steps.filterMap ScanStep.entry

def rowsOf (steps : List ScanStep) : Nat :=
  steps.countP ScanStep.entersRow

def durationOf (steps : List ScanStep) : Nat :=
  (steps.map ScanStep.duration).sum

section Sink

variable {Sink : Type} (accept : Entry → Sink → Delivery × Sink)

/-- The destination after entries were offered to it. -/
def sinkAfter (entries : List Entry) (sink : Sink) : Sink :=
  entries.foldl (fun sink entry => (accept entry sink).2) sink

/-- Whether a destination accepts all of the entries when they are offered to it in turn. -/
def AcceptsAll : List Entry → Sink → Prop
  | [], _ => True
  | entry :: rest, sink =>
    (accept entry sink).1.accepted = true ∧ AcceptsAll rest (accept entry sink).2

/-- Whether a scan goes on after some steps: each of them succeeds and each entry is accepted. -/
structure Passes (sink : Sink) (steps : List ScanStep) : Prop where
  succeeded : ∀ step ∈ steps, step.failure = none
  accepted : AcceptsAll accept (entriesOf steps) sink

/-- What a scan returns that gets through `earlier` steps of a plan and is stopped by the step
`last`, before the `rest` of them: by its failure, by an entry that is refused, or by being the last
step of all. -/
inductive Concludes (sink : Sink) (earlier : List ScanStep) :
    (last : ScanStep) → (rest : List ScanStep) → Except ScanFailure ScanTally → Prop where
  | failed {last : ScanStep} {rest : List ScanStep} {error : CallFailure}
    (failure : last.failure = some error) :
    Concludes sink earlier last rest (.error ⟨error, (entriesOf earlier).length⟩)
  | refused {last : ScanStep} {rest : List ScanStep} {entry : Entry}
    (succeeded : last.failure = none) (yields : last.entry = some entry)
    (refusal : (accept entry (sinkAfter accept (entriesOf earlier) sink)).1.accepted = false) :
    Concludes sink earlier last rest
      (.ok ⟨(entriesOf earlier).length, rowsOf earlier, .sinkClosed⟩)
  | completed {last : ScanStep} (succeeded : last.failure = none) (yields : last.entry = none) :
    Concludes sink earlier last []
      (.ok ⟨(entriesOf earlier).length, rowsOf earlier,
        if rowsOf earlier = 0 then .noData else .completed⟩)

/-- What a scan has done when it has ended in this way: it has made the calls of these steps and no
others, one after the other, and has closed the view if it had opened one. -/
structure StopsAt (sink : Sink) (closedViews : Nat) (earlier : List ScanStep) (last : ScanStep)
    (rest : List ScanStep) (run : ScanRun ((ScanScript × Sink) × List ScanCall)) : Prop where
  passed : Passes accept sink earlier
  result : Concludes accept sink earlier last rest run.result
  elapsed : run.elapsed = durationOf (earlier ++ [last])
  offered : run.state.1.2 = sinkAfter accept (entriesOf (earlier ++ [last])) sink
  calls : run.state.2 = (earlier ++ [last]).flatMap ScanStep.calls ++
    if earlier = [] then [] else [.closeView]
  closed : run.state.1.1.closedViews = closedViews + if earlier = [] then 0 else 1

/-- Where a scan stands after some steps, with a script for the ones to come. -/
def stateAfter (sink : Sink) (steps : List ScanStep) (script : ScanScript) :
    (ScanScript × Sink) × List ScanCall :=
  ((script, sinkAfter accept (entriesOf steps) sink), steps.flatMap ScanStep.calls)

end Sink

def progressAfter (steps : List ScanStep) : ScanProgress :=
  ⟨(entriesOf steps).length, rowsOf steps, durationOf steps⟩

/-- The steps to come inside a row or between two rows. -/
def stepsFrom (timeout : Nat) (row : Option Bytes) (script : ScanScript) : List ScanStep :=
  match row with
  | none => stepsOfRows timeout script.rows
  | some key => columnSteps timeout key script.columns ++ stepsOfRows timeout script.rows

section Steps

variable (past : List ScanStep) (step : ScanStep)

theorem entriesOf_concat : entriesOf (past ++ [step]) = entriesOf past ++ step.entry.toList := by
  cases yielded : step.entry <;> simp [entriesOf, yielded]

theorem durationOf_concat :
    durationOf (past ++ [step]) = durationOf past + step.duration := by
  simp [durationOf]

theorem progressAfter_concat :
    progressAfter (past ++ [step]) =
      ⟨(entriesOf past).length + step.entry.toList.length,
        rowsOf past + (if step.entersRow then 1 else 0), durationOf past + step.duration⟩ := by
  simp [progressAfter, entriesOf_concat, durationOf_concat, rowsOf, List.countP_singleton]

theorem stateAfter_concat {Sink : Type} (accept : Entry → Sink → Delivery × Sink) (sink : Sink)
    (script : ScanScript) :
    stateAfter accept sink (past ++ [step]) script =
      ((script, sinkAfter accept step.entry.toList (sinkAfter accept (entriesOf past) sink)),
        past.flatMap ScanStep.calls ++ step.calls) := by
  simp [stateAfter, sinkAfter, entriesOf_concat]

end Steps

section Fetches

variable {Sink : Type} (accept : Entry → Sink → Delivery × Sink) (sink : Sink)
  (timeout limit : Nat) (past : List ScanStep) {script : ScanScript}

/-- The fetch of a row. -/
theorem fetchFrom_none {row : RowScript} {rows : List RowScript} (left : script.rows = row :: rows)
    (short : row.reply.delay ≤ Pause.longest) :
    let step := ScanStep.ofRow timeout row.reply
    let next := stateAfter accept sink (past ++ [step]) { script with rows, columns := row.columns }
    (system accept).recorded.fetchFrom timeout (limit + 1) none (progressAfter past)
        (stateAfter accept sink past script) =
      match row.reply.outcome timeout with
      | .error error =>
        some ((system accept).recorded.fail error (progressAfter (past ++ [step])) next)
      | .ok key =>
        (system accept).recorded.fetchFrom timeout limit (some key)
          (progressAfter (past ++ [step])) next := by
  have call : (system accept).recorded.fetchRow (stateAfter accept sink past script) =
      (row.reply.map some, (({ script with rows, columns := row.columns },
        sinkAfter accept (entriesOf past) sink), past.flatMap ScanStep.calls ++ [.fetchRow])) := by
    simp only [ScanSystem.recorded, system, stateAfter, left]
  simp only [ScanSystem.fetchFrom, call, Reply.within_map_of_delay_le some short,
    progressAfter_concat, stateAfter_concat, ScanStep.ofRow, ScanStep.of, ScanStep.calls]
  cases row.reply.outcome timeout <;> rfl

/-- The fetch that finds no row any more. -/
theorem fetchFrom_none_atEnd (left : script.rows = []) :
    let step := ScanStep.atEnd .fetchRow
    (system accept).recorded.fetchFrom timeout (limit + 1) none (progressAfter past)
        (stateAfter accept sink past script) =
      some ((system accept).recorded.complete (progressAfter (past ++ [step]))
        (stateAfter accept sink (past ++ [step]) script)) := by
  have call : (system accept).recorded.fetchRow (stateAfter accept sink past script) =
      (.immediate (.ok none), ((script, sinkAfter accept (entriesOf past) sink),
        past.flatMap ScanStep.calls ++ [.fetchRow])) := by
    simp only [ScanSystem.recorded, system, stateAfter, left]
  simp only [ScanSystem.fetchFrom, call, Reply.within_immediate, progressAfter_concat,
    stateAfter_concat]
  rfl

/-- The fetch of a column and the offer of what it yields. -/
theorem fetchFrom_some (row : Bytes) {reply : Reply (Column × Bytes)}
    {columns : List (Reply (Column × Bytes))} (left : script.columns = reply :: columns)
    (short : reply.delay ≤ Pause.longest) :
    let step := ScanStep.ofColumn timeout row reply
    let next := stateAfter accept sink (past ++ [step]) { script with columns }
    (system accept).recorded.fetchFrom timeout (limit + 1) (some row) (progressAfter past)
        (stateAfter accept sink past script) =
      match reply.outcome timeout with
      | .error error =>
        some ((system accept).recorded.fail error (progressAfter (past ++ [step])) next)
      | .ok (column, value) =>
        let delivery := (accept ⟨row, column, value⟩ (sinkAfter accept (entriesOf past) sink)).1
        if delivery.accepted then
          ((system accept).recorded.fetchFrom timeout limit (some row)
            (progressAfter (past ++ [step])) next).map (·.after delivery.events)
        else
          some (((system accept).recorded.stop
            { progressAfter past with elapsed := durationOf (past ++ [step]) } next).after
              delivery.events) := by
  have call : (system accept).recorded.fetchColumn (stateAfter accept sink past script) =
      (reply.map some, (({ script with columns }, sinkAfter accept (entriesOf past) sink),
        past.flatMap ScanStep.calls ++ [.fetchColumn])) := by
    simp only [ScanSystem.recorded, system, stateAfter, left]
  simp only [ScanSystem.fetchFrom, call, Reply.within_map_of_delay_le some short,
    progressAfter_concat, stateAfter_concat, durationOf_concat, ScanStep.ofColumn, ScanStep.of,
    ScanStep.calls]
  cases reply.outcome timeout with
  | error error => rfl
  | ok cell =>
      have offer (calls : List ScanCall) :
          (system accept).recorded.accept ⟨row, cell.1, cell.2⟩
              (({ script with columns }, sinkAfter accept (entriesOf past) sink), calls) =
            ((accept ⟨row, cell.1, cell.2⟩ (sinkAfter accept (entriesOf past) sink)).1,
              ({ script with columns },
                (accept ⟨row, cell.1, cell.2⟩ (sinkAfter accept (entriesOf past) sink)).2),
              calls ++ [.offer ⟨row, cell.1, cell.2⟩]) := rfl
      simp only [Except.map, offer, List.append_assoc]
      split <;> rfl

/-- The fetch that finds no column any more. -/
theorem fetchFrom_some_atEnd {row : Bytes} (left : script.columns = []) :
    let step := ScanStep.atEnd .fetchColumn
    (system accept).recorded.fetchFrom timeout (limit + 1) (some row) (progressAfter past)
        (stateAfter accept sink past script) =
      (system accept).recorded.fetchFrom timeout limit none (progressAfter (past ++ [step]))
        (stateAfter accept sink (past ++ [step]) script) := by
  have call : (system accept).recorded.fetchColumn (stateAfter accept sink past script) =
      (.immediate (.ok none), ((script, sinkAfter accept (entriesOf past) sink),
        past.flatMap ScanStep.calls ++ [.fetchColumn])) := by
    simp only [ScanSystem.recorded, system, stateAfter, left]
  simp only [ScanSystem.fetchFrom, call, Reply.within_immediate, progressAfter_concat,
    stateAfter_concat]
  rfl

end Fetches

section Order

variable (timeout : Nat) {script : ScanScript}

theorem stepsFrom_row {row : RowScript} {rows : List RowScript} (left : script.rows = row :: rows) :
    stepsFrom timeout none script = .ofRow timeout row.reply ::
      match row.reply.outcome timeout with
      | .ok key => stepsFrom timeout (some key) { script with rows, columns := row.columns }
      | .error _ => stepsOfRows timeout rows := by
  cases entered : row.reply.outcome timeout <;>
    simp [stepsFrom, stepsOfRows, left, rowSteps, entered]

theorem stepsFrom_column {row : Bytes} {reply : Reply (Column × Bytes)}
    {columns : List (Reply (Column × Bytes))} (left : script.columns = reply :: columns) :
    stepsFrom timeout (some row) script =
      .ofColumn timeout row reply :: stepsFrom timeout (some row) { script with columns } := by
  simp [stepsFrom, columnSteps, left]

theorem stepsFrom_columns_nil {row : Bytes} (left : script.columns = []) :
    stepsFrom timeout (some row) script =
      .atEnd .fetchColumn :: stepsFrom timeout none script := by
  simp [stepsFrom, columnSteps, left]

end Order

section Stops

variable {Sink : Type} {accept : Entry → Sink → Delivery × Sink} {sink : Sink} {timeout : Nat}
  {past rest : List ScanStep} {script : ScanScript}

theorem acceptsAll_append {first rest : List Entry} :
    AcceptsAll accept (first ++ rest) sink ↔
      AcceptsAll accept first sink ∧ AcceptsAll accept rest (sinkAfter accept first sink) := by
  induction first generalizing sink with
  | nil => simp [AcceptsAll, sinkAfter]
  | cons entry first ih =>
      simp only [List.cons_append, AcceptsAll, ih, and_assoc]
      rfl

theorem Passes.concat {step : ScanStep} (passed : Passes accept sink past)
    (succeeded : step.failure = none)
    (accepted : ∀ entry, step.entry = some entry →
      (accept entry (sinkAfter accept (entriesOf past) sink)).1.accepted = true) :
    Passes accept sink (past ++ [step]) := by
  constructor
  case succeeded =>
    intro other member
    rcases List.mem_append.1 member with member | member
    · exact passed.succeeded other member
    · rw [List.mem_singleton.1 member]
      exact succeeded
  case accepted =>
    rw [entriesOf_concat, acceptsAll_append]
    refine ⟨passed.accepted, ?_⟩
    cases yielded : step.entry with
    | none => trivial
    | some entry => exact ⟨accepted entry yielded, trivial⟩

theorem StopsAt.after {closedViews : Nat} {earlier : List ScanStep} {last : ScanStep}
    {run : ScanRun ((ScanScript × Sink) × List ScanCall)}
    (stops : StopsAt accept sink closedViews earlier last rest run) (events : List Event) :
    StopsAt accept sink closedViews earlier last rest (run.after events) :=
  ⟨stops.passed, stops.result, stops.elapsed, stops.offered, stops.calls, stops.closed⟩

theorem Concludes.stopsAt {last : ScanStep} {result : Except ScanFailure ScanTally}
    {closedViews : Nat} (passed : Passes accept sink past) (begun : past ≠ [])
    (unclosed : script.closedViews = closedViews)
    (concluded : Concludes accept sink past last rest result) (events : List Event) :
    StopsAt accept sink closedViews past last rest
      ⟨result, durationOf (past ++ [last]),
        (system accept).recorded.closeView (stateAfter accept sink (past ++ [last]) script),
        events⟩ := by
  constructor
  case passed => exact passed
  case result => exact concluded
  case elapsed => rfl
  case offered => rfl
  case calls => simp [ScanSystem.recorded, stateAfter, begun]
  case closed => simp [ScanSystem.recorded, system, stateAfter, begun, unclosed]

section Endings

variable {last : ScanStep} {closedViews : Nat} (passed : Passes accept sink past)
  (begun : past ≠ []) (unclosed : script.closedViews = closedViews)

include passed begun unclosed

theorem stopsAt_fail {error : CallFailure} (failure : last.failure = some error)
    (nothing : last.entry = none) :
    StopsAt accept sink closedViews past last rest
      ((system accept).recorded.fail error (progressAfter (past ++ [last]))
        (stateAfter accept sink (past ++ [last]) script)) := by
  have entries : (progressAfter (past ++ [last])).entries = (entriesOf past).length := by
    simp [progressAfter_concat, nothing]
  rw [ScanSystem.fail, entries]
  exact Concludes.stopsAt passed begun unclosed (.failed failure) _

theorem stopsAt_stop {entry : Entry} (succeeded : last.failure = none)
    (yields : last.entry = some entry)
    (refusal : (accept entry (sinkAfter accept (entriesOf past) sink)).1.accepted = false) :
    StopsAt accept sink closedViews past last rest
      ((system accept).recorded.stop
        { progressAfter past with elapsed := durationOf (past ++ [last]) }
        (stateAfter accept sink (past ++ [last]) script)) :=
  Concludes.stopsAt passed begun unclosed (.refused succeeded yields refusal) _

theorem stopsAt_complete (succeeded : last.failure = none) (nothing : last.entry = none)
    (outside : last.entersRow = false) :
    StopsAt accept sink closedViews past last []
      ((system accept).recorded.complete (progressAfter (past ++ [last]))
        (stateAfter accept sink (past ++ [last]) script)) := by
  have entries : (progressAfter (past ++ [last])).entries = (entriesOf past).length := by
    simp [progressAfter_concat, nothing]
  have rows : (progressAfter (past ++ [last])).rows = rowsOf past := by
    simp [progressAfter_concat, outside]
  rw [ScanSystem.complete, entries, rows]
  exact Concludes.stopsAt passed begun unclosed (.completed succeeded nothing) _

end Endings

/-- That no reply is late by more than a pause can last, in what is left of a script inside a row or
between two rows. -/
structure InTime (row : Option Bytes) (script : ScanScript) : Prop where
  rows : ∀ row ∈ script.rows, row.reply.delay ≤ Pause.longest ∧
    ∀ reply ∈ row.columns, reply.delay ≤ Pause.longest
  columns : row.isSome → ∀ reply ∈ script.columns, reply.delay ≤ Pause.longest

/-- What one fetch of a scan under way can come to, which has `limit` more fetches after it: the
scan stops with the first of the steps to come, or it goes on after that step. -/
inductive FetchesTo {Sink : Type} (accept : Entry → Sink → Delivery × Sink) (sink : Sink)
    (timeout limit : Nat) (past : List ScanStep) (row : Option Bytes) (script : ScanScript) :
    Option (ScanRun ((ScanScript × Sink) × List ScanCall)) → Prop where
  | stops {last : ScanStep} {rest : List ScanStep}
    {run : ScanRun ((ScanScript × Sink) × List ScanCall)}
    (first : stepsFrom timeout row script = last :: rest)
    (stopped : StopsAt accept sink script.closedViews past last rest run) :
    FetchesTo accept sink timeout limit past row script (some run)
  | goesOn {step : ScanStep} {rowThen : Option Bytes} {scriptThen : ScanScript}
    (first : stepsFrom timeout row script = step :: stepsFrom timeout rowThen scriptThen)
    (passed : Passes accept sink (past ++ [step])) (inTime : InTime rowThen scriptThen)
    (unclosed : scriptThen.closedViews = script.closedViews) (events : List Event) :
    FetchesTo accept sink timeout limit past row script
      (((system accept).recorded.fetchFrom timeout limit rowThen (progressAfter (past ++ [step]))
        (stateAfter accept sink (past ++ [step]) scriptThen)).map (·.after events))

theorem FetchesTo.goesOn_silently {limit : Nat} {row rowThen : Option Bytes}
    {scriptThen : ScanScript} {step : ScanStep}
    (first : stepsFrom timeout row script = step :: stepsFrom timeout rowThen scriptThen)
    (passed : Passes accept sink (past ++ [step])) (inTime : InTime rowThen scriptThen)
    (unclosed : scriptThen.closedViews = script.closedViews) :
    FetchesTo accept sink timeout limit past row script
      ((system accept).recorded.fetchFrom timeout limit rowThen (progressAfter (past ++ [step]))
        (stateAfter accept sink (past ++ [step]) scriptThen)) := by
  rw [← ScanRun.map_after_nil ((system accept).recorded.fetchFrom _ _ _ _ _)]
  exact .goesOn first passed inTime unclosed []

section FetchesTo

variable (limit : Nat) (passed : Passes accept sink past) (begun : past ≠ [])

include passed begun

/-- The fetch between two rows. -/
theorem fetchesTo_row (inTime : InTime none script) :
    FetchesTo accept sink timeout limit past none script
      ((system accept).recorded.fetchFrom timeout (limit + 1) none (progressAfter past)
        (stateAfter accept sink past script)) := by
  cases left : script.rows with
  | nil =>
      rw [fetchFrom_none_atEnd accept sink timeout limit past left]
      refine .stops ?_ (stopsAt_complete passed begun rfl rfl rfl rfl)
      simp [stepsFrom, stepsOfRows, left]
  | cons row rows =>
      rcases inTime.rows row (left ▸ List.mem_cons_self) with ⟨rowInTime, columnsInTime⟩
      have steps := stepsFrom_row timeout left
      rw [fetchFrom_none accept sink timeout limit past left rowInTime]
      cases outcome : row.reply.outcome timeout with
      | error error =>
          have failure : (ScanStep.ofRow timeout row.reply).failure = some error := by
            simp [ScanStep.ofRow, ScanStep.of, outcome]
          rw [outcome] at steps
          exact .stops steps (stopsAt_fail passed begun (by rfl) failure rfl)
      | ok key =>
          have succeeded : (ScanStep.ofRow timeout row.reply).failure = none := by
            simp [ScanStep.ofRow, ScanStep.of, outcome]
          have inTimeThen : InTime (some key) { script with rows, columns := row.columns } := by
            refine ⟨?_, fun _ => columnsInTime⟩
            intro other member
            exact inTime.rows other (left ▸ List.mem_cons_of_mem row member)
          rw [outcome] at steps
          exact .goesOn_silently steps (passed.concat succeeded nofun) inTimeThen rfl

/-- The fetch inside a row. -/
theorem fetchesTo_column {row : Bytes} (inTime : InTime (some row) script) :
    FetchesTo accept sink timeout limit past (some row) script
      ((system accept).recorded.fetchFrom timeout (limit + 1) (some row) (progressAfter past)
        (stateAfter accept sink past script)) := by
  cases left : script.columns with
  | nil =>
      rw [fetchFrom_some_atEnd accept sink timeout limit past left]
      exact .goesOn_silently (stepsFrom_columns_nil timeout left) (passed.concat rfl nofun)
        ⟨inTime.rows, nofun⟩ rfl
  | cons reply columns =>
      have columnsInTime := inTime.columns rfl
      have steps : stepsFrom timeout (some row) script = _ := stepsFrom_column timeout left
      rw [fetchFrom_some accept sink timeout limit past row left
        (columnsInTime reply (left ▸ List.mem_cons_self))]
      cases outcome : reply.outcome timeout with
      | error error =>
          rcases ScanStep.ofColumn_of_error row outcome with ⟨failure, nothing⟩
          exact .stops steps (stopsAt_fail passed begun (by rfl) failure nothing)
      | ok cell =>
          rcases ScanStep.ofColumn_of_ok row outcome with ⟨succeeded, yields⟩
          cases accepted : (accept ⟨row, cell.1, cell.2⟩
              (sinkAfter accept (entriesOf past) sink)).1.accepted with
          | false =>
              simp only [accepted, Bool.false_eq_true, if_false]
              apply FetchesTo.stops steps
              apply StopsAt.after
              exact stopsAt_stop passed begun rfl succeeded yields accepted
          | true =>
              have passedThen := passed.concat succeeded (by
                intro entry same
                obtain rfl := Option.some.inj (yields.symm.trans same)
                exact accepted)
              have inTimeThen : InTime (some row) { script with columns } := by
                refine ⟨inTime.rows, ?_⟩
                intro _ other member
                exact columnsInTime other (left ▸ List.mem_cons_of_mem reply member)
              simp only [accepted, if_true]
              exact .goesOn steps passedThen inTimeThen rfl _

end FetchesTo

/-- Fetches given to a scan that is under way take it to its end. -/
theorem fetchFrom_stops (limit : Nat) (row : Option Bytes) (past : List ScanStep)
    (script : ScanScript) (passed : Passes accept sink past) (begun : past ≠ [])
    (inTime : InTime row script) (enough : (stepsFrom timeout row script).length ≤ limit) :
    ∃ earlier last rest run,
      past ++ stepsFrom timeout row script = earlier ++ last :: rest ∧
      (system accept).recorded.fetchFrom timeout limit row (progressAfter past)
        (stateAfter accept sink past script) = some run ∧
      StopsAt accept sink script.closedViews earlier last rest run := by
  -- Every fetch takes the first of the steps to come and makes it the last of the past ones.
  induction limit generalizing row past script with
  | zero => cases row <;> simp [stepsFrom, stepsOfRows, columnSteps] at enough
  | succ limit ih =>
      have fetched : FetchesTo accept sink timeout limit past row script
          ((system accept).recorded.fetchFrom timeout (limit + 1) row (progressAfter past)
            (stateAfter accept sink past script)) := by
        cases row with
        | none => exact fetchesTo_row limit passed begun inTime
        | some row => exact fetchesTo_column limit passed begun inTime
      generalize (system accept).recorded.fetchFrom timeout (limit + 1) row (progressAfter past)
        (stateAfter accept sink past script) = fetch at fetched ⊢
      cases fetched with
      | @stops last rest run first stopped =>
          rw [first]
          exact ⟨past, last, rest, run, rfl, rfl, stopped⟩
      | @goesOn step rowThen scriptThen first passedThen inTimeThen unclosed events =>
          rw [first] at enough ⊢
          rcases ih rowThen _ scriptThen passedThen (by simp) inTimeThen
            (Nat.le_of_succ_le_succ enough) with ⟨earlier, last, rest, run, split, ran, stops⟩
          rw [ran, List.append_cons, ← unclosed]
          exact ⟨earlier, last, rest, _, split, rfl, stops.after events⟩

end Stops

/-- The limit on the fetches of a scan covers its plan. -/
theorem length_stepsOfRows_le (timeout : Nat) (rows : List RowScript) :
    (stepsOfRows timeout rows).length ≤
      rows.foldr (fun row fetches => row.columns.length + 2 + fetches) 1 := by
  induction rows with
  | nil => simp [stepsOfRows]
  | cons row rows ih =>
      have inside : (rowSteps timeout row).length ≤ row.columns.length + 2 := by
        simp only [rowSteps, List.length_cons]
        split <;> simp [columnSteps]
      simp only [stepsOfRows, List.flatMap_cons, List.append_assoc, List.length_append,
        List.foldr_cons] at ih ⊢
      omega

/-- The scan of a script with a record of its calls. -/
def recordedScan {Sink : Type} (accept : Entry → Sink → Delivery × Sink) (timeout : Nat)
    (query : Query) (script : ScanScript) (sink : Sink) :
    Option (ScanRun ((ScanScript × Sink) × List ScanCall)) :=
  (system accept).recorded.scan timeout script.fetchLimit query ((script, sink), [])

/-- A scan of a script makes the round trips of its plan one after the other, offers each entry as
soon as it is there, and stops at the first round trip that fails, at the first entry that is
refused or at the end of the plan. -/
theorem scan_follows_plan {Sink : Type} (accept : Entry → Sink → Delivery × Sink) (sink : Sink)
    (timeout : Nat) (query : Query) (script : ScanScript)
    (shortOpening : script.opening.delay ≤ Pause.longest)
    (shortRows : ∀ row ∈ script.rows, row.reply.delay ≤ Pause.longest ∧
      ∀ reply ∈ row.columns, reply.delay ≤ Pause.longest) :
    ∃ earlier last rest run,
      script.plan timeout = earlier ++ last :: rest ∧
      script.recordedScan accept timeout query sink = some run ∧
      script.scan accept timeout query sink = some (run.onState Prod.fst) ∧
      StopsAt accept sink script.closedViews earlier last rest run := by
  have projected := (system accept).scan_of_recorded timeout script.fetchLimit query (script, sink)
  suffices recorded : ∃ earlier last rest run, script.plan timeout = earlier ++ last :: rest ∧
      script.recordedScan accept timeout query sink = some run ∧
      StopsAt accept sink script.closedViews earlier last rest run by
    rcases recorded with ⟨earlier, last, rest, run, split, scanned, stops⟩
    refine ⟨earlier, last, rest, run, split, scanned, ?_, stops⟩
    rw [scan, projected]
    exact congrArg (Option.map (·.onState Prod.fst)) scanned
  have call : (system accept).recorded.openView query ((script, sink), []) =
      (script.opening, (script, sink), [.openView]) := rfl
  simp only [recordedScan, ScanSystem.scan, call, Reply.within_of_delay_le shortOpening]
  cases outcome : script.opening.outcome timeout with
  | error error =>
      refine ⟨[], .of .openView timeout script.opening, _, _, rfl, rfl, ?_⟩
      have failure : (ScanStep.of .openView timeout script.opening).failure = some error := by
        simp [ScanStep.of, outcome]
      constructor
      case passed => exact ⟨nofun, trivial⟩
      case result => exact .failed failure
      case elapsed => simp [durationOf, ScanStep.of]
      case offered => rfl
      case calls => rfl
      case closed => rfl
  | ok opened =>
      have succeeded : (ScanStep.of .openView timeout script.opening).failure = none := by
        simp [ScanStep.of, outcome]
      have passed : Passes accept sink [.of .openView timeout script.opening] := by
        refine ⟨?_, trivial⟩
        intro step member
        rw [List.mem_singleton.1 member]
        exact succeeded
      rcases fetchFrom_stops script.fetchLimit none _ script passed (by simp) ⟨shortRows, nofun⟩
        (length_stepsOfRows_le timeout script.rows) with
        ⟨earlier, last, rest, run, split, followed, stops⟩
      refine ⟨earlier, last, rest, run.after [.scanStarted query.rows query.patterns.size],
        split, ?_, stops.after _⟩
      exact congrArg (Option.map (·.after [.scanStarted query.rows query.patterns.size])) followed

/-- A script that never answers the fetch of its second row. -/
def stalledScript : ScanScript where
  opening := ⟨20, some (.ok ())⟩
  rows := [⟨.immediate (.ok [1]),
    [⟨7, some (.ok (⟨[10], []⟩, [5]))⟩, .immediate (.ok (⟨[11], []⟩, [6]))]⟩, ⟨⟨0, none⟩, []⟩]

theorem scan_follows_plan_stalledScript :
    stalledScript.opening.delay ≤ Pause.longest ∧
      (∀ row ∈ stalledScript.rows, row.reply.delay ≤ Pause.longest ∧
        ∀ reply ∈ row.columns, reply.delay ≤ Pause.longest) ∧
      ∃ run, stalledScript.recordedScan EntryCollection.accept 500 ⟨.all, .empty⟩ {} = some run ∧
        run.result = .error ⟨.tooSlow (.ofMilliseconds 500), 2⟩ ∧ run.elapsed = 20 + 7 + 500 ∧
        run.state.2 = [.openView, .fetchRow, .fetchColumn, .offer ⟨[1], ⟨[10], []⟩, [5]⟩,
          .fetchColumn, .offer ⟨[1], ⟨[11], []⟩, [6]⟩, .fetchColumn, .fetchRow, .closeView] := by
  have shortRows : ∀ row ∈ stalledScript.rows, row.reply.delay ≤ Pause.longest ∧
      ∀ reply ∈ row.columns, reply.delay ≤ Pause.longest := by decide
  refine ⟨by decide, shortRows, ?_⟩
  rcases scan_follows_plan EntryCollection.accept {} 500 ⟨.all, .empty⟩ stalledScript (by decide)
    shortRows with ⟨earlier, last, rest, run, split, recorded, scanned, stops⟩
  obtain rfl := Option.some.inj (recorded.symm.trans rfl)
  exact ⟨_, recorded, rfl, rfl, rfl⟩

end ScanScript

end DataflowOps
