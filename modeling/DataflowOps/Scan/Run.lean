import DataflowOps.Reply
import DataflowOps.Scan.Entry
import DataflowOps.Query

/-!
# Running a scan

A scan opens a view for its query, fetches row after row, fetches every column of a row before the
next row, and offers each entry to a destination. It ends when the rows are used up, at the first
call that fails or is not answered in time, or at the first entry that is refused. The view is
closed in every case.
-/

namespace DataflowOps

/-- What a scan acts on: a source of rows and columns and a destination of entries, over one
state. -/
structure ScanSystem (State : Type) where
  openView : Query → State → Reply Unit × State
  fetchRow : State → Reply (Option Bytes) × State
  fetchColumn : State → Reply (Option (Column × Bytes)) × State
  accept : Entry → State → Delivery × State
  closeView : State → State

inductive ScanEnd where
  | completed
  | noData
  | sinkClosed
  deriving DecidableEq, Repr

structure ScanTally where
  entries : Nat
  rows : Nat
  outcome : ScanEnd
  deriving DecidableEq, Repr

/-- Failure of a scan; the entries accepted before it are kept. -/
structure ScanFailure where
  cause : CallFailure
  entries : Nat
  deriving DecidableEq, Repr

def ScanFailure.message (error : ScanFailure) : String :=
  s!"scan failed after {error.entries} entries: " ++ error.cause.message

/-- A scan that has ended: its result, the milliseconds it took, the state left behind and what was
reported. -/
structure ScanRun (State : Type) where
  result : Except ScanFailure ScanTally
  elapsed : Nat
  state : State
  events : List Event

/-- The run with events that were reported before its own. -/
def ScanRun.after {State : Type} (events : List Event) (run : ScanRun State) : ScanRun State :=
  { run with events := events ++ run.events }

structure ScanProgress where
  entries : Nat := 0
  rows : Nat := 0
  elapsed : Nat := 0
  deriving DecidableEq, Repr

namespace ScanSystem

variable {State : Type}

def fail (system : ScanSystem State) (error : CallFailure) (progress : ScanProgress)
    (state : State) : ScanRun State where
  result := .error ⟨error, progress.entries⟩
  elapsed := progress.elapsed
  state := system.closeView state
  events := [.scanFailed progress.entries error]

/-- The end of a scan whose rows are used up. -/
def complete (system : ScanSystem State) (progress : ScanProgress) (state : State) :
    ScanRun State where
  result := .ok ⟨progress.entries, progress.rows, if progress.rows = 0 then .noData else .completed⟩
  elapsed := progress.elapsed
  state := system.closeView state
  events :=
    if progress.rows = 0 then [.scanNoData] else [.scanCompleted progress.rows progress.entries]

def stop (system : ScanSystem State) (progress : ScanProgress) (state : State) :
    ScanRun State where
  result := .ok ⟨progress.entries, progress.rows, .sinkClosed⟩
  elapsed := progress.elapsed
  state := system.closeView state
  events := [.scanSinkClosed progress.entries, .scanCompleted progress.rows progress.entries]

/-- Fetches from the open view: the next column inside a row, otherwise the next row. There is no
result when the scan is still going on after `limit` fetches. -/
def fetchFrom (system : ScanSystem State) (timeout : Nat) :
    (limit : Nat) → (row : Option Bytes) → ScanProgress → State → Option (ScanRun State)
  | 0, _, _, _ => none
  | limit + 1, none, progress, state =>
    let (reply, state) := system.fetchRow state
    let received := reply.within timeout
    let progress := { progress with elapsed := progress.elapsed + received.elapsed }
    match received.result with
    | .error error => some (system.fail error progress state)
    | .ok none => some (system.complete progress state)
    | .ok (some row) =>
      system.fetchFrom timeout limit (some row) { progress with rows := progress.rows + 1 } state
  | limit + 1, some row, progress, state =>
    let (reply, state) := system.fetchColumn state
    let received := reply.within timeout
    let progress := { progress with elapsed := progress.elapsed + received.elapsed }
    match received.result with
    | .error error => some (system.fail error progress state)
    | .ok none => system.fetchFrom timeout limit none progress state
    | .ok (some (column, value)) =>
      let (delivery, state) := system.accept ⟨row, column, value⟩ state
      if delivery.accepted then
        (system.fetchFrom timeout limit (some row)
          { progress with entries := progress.entries + 1 } state).map (·.after delivery.events)
      else some ((system.stop progress state).after delivery.events)

/-- Runs a scan. There is no result when it is still going on after `limit` fetches. -/
def scan (system : ScanSystem State) (timeout limit : Nat) (query : Query) (state : State) :
    Option (ScanRun State) :=
  let (reply, state) := system.openView query state
  let received := reply.within timeout
  let started := Event.scanStarted query.rows query.patterns.size
  match received.result with
  | .error error =>
    some ⟨.error ⟨error, 0⟩, received.elapsed, state, [started, .scanFailed 0 error]⟩
  | .ok () =>
    (system.fetchFrom timeout limit none { elapsed := received.elapsed } state).map
      (·.after [started])

end ScanSystem

end DataflowOps
