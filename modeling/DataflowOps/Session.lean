import DataflowOps.CellTable
import DataflowOps.Command.Scan
import DataflowOps.Command.Wait

/-!
# Sessions

A session is a sequence of steps on one cluster: single operations of clients, the library's scans
and waits, and the commands of the operator. Each step has one answer, and a step whose settings or
options are mistaken is not carried out. The rows of a view are fetched one step at a time, with
further steps in between that read the row's columns.
-/

namespace DataflowOps

/-- What a client does while it holds the columns of a row. -/
inductive RowAction where
  | fetchColumn
  | drainColumns
  | operation (operation : Operation)
  deriving DecidableEq

inductive SessionAction where
  | operation (operation : Operation)
  | openView (draft : QueryDraft)
  | row (view : Nat) (actions : List RowAction)
  | scan (draft : QueryDraft) (limit : Option Nat) (hooks : List ScanHook)
  | sample
  | wait (cancellation : Cancellation) (visits : List Visit)
  | load (file : Bytes)
  | scanCommand (options : ScanOptions) (output errors : OutputPipe)
  | waitCommand (cancellation : Cancellation) (visits : List Visit) (errors : OutputPipe)

/-- A step of a session, with settings of its own if it has any. -/
structure SessionStep where
  settings : Option SettingsDraft := none
  action : SessionAction

inductive SessionAnswer where
  | mistaken (error : OperatorMistake)
  | answered (answer : Answer)
  | row (row : Bytes) (answers : List Answer)
  | scanned (result : Except ScanFailure ScanTally) (entries : List Entry)
    (hooks : List (List Answer))
  | sampled (sample : BacklogSample) (quiescent : Bool) (verdict : Verdict)
  | waited (result : Except WaitFailure WaitEnd) (instant : Nat) (visits : List (List Answer))
  | loaded (result : Except LoadFailure Nat)
  | scanCommandEnded (result : Except ReportFailure ExitStatus) (output errors : Bytes)
  | waitCommandEnded (result : Except ReportFailure ExitStatus) (instant : Nat) (errors : Bytes)
    (visits : List (List Answer))
  | neverEnds

/-- What a step leads to: its answer, the cluster left behind and what was reported. -/
structure StepResult where
  answer : SessionAnswer
  cluster : Cluster
  events : List Event := []

namespace Session

/-- Fetches columns of a view until the answer is not a column. That is the case after at most
`limit` fetches, one more than there are versions stored. -/
def drainColumns (view : Nat) : (limit : Nat) → Cluster → List Answer × Cluster
  | 0, cluster => ([], cluster)
  | limit + 1, cluster =>
    match cluster.perform (.fetchColumn view) with
    | (.column (some column), next) =>
      let (answers, last) := drainColumns view limit next
      (.column (some column) :: answers, last)
    | (answer, next) => ([answer], next)

def performRowAction (view : Nat) (cluster : Cluster) : RowAction → List Answer × Cluster
  | .fetchColumn => cluster.performAll [.fetchColumn view]
  | .drainColumns => drainColumns view (cluster.engine.versions.size + 1) cluster
  | .operation operation => cluster.performAll [operation]

def performRowActions (view : Nat) (cluster : Cluster) : List RowAction → List Answer × Cluster
  | [] => ([], cluster)
  | action :: rest =>
    let (answers, next) := performRowAction view cluster action
    let (later, last) := performRowActions view next rest
    (answers ++ later, last)

def performOperation (operation : Operation) (cluster : Cluster) : StepResult :=
  let (answer, next) := cluster.perform operation
  ⟨.answered answer, next, answer.events⟩

/-- Fetches the next row of a view and carries out the actions on it. -/
def performRow (view : Nat) (actions : List RowAction) (cluster : Cluster) : StepResult :=
  match cluster.perform (.fetchRow view) with
  | (.row (some row), next) =>
    let (answers, last) := performRowActions view next actions
    ⟨.row row answers, last, Answer.eventsOf answers⟩
  | (answer, next) => ⟨.answered answer, next, []⟩

/-- The step of a query, unless its draft is mistaken. -/
def withQuery (draft : QueryDraft) (cluster : Cluster) (step : Query → StepResult) :
    StepResult :=
  match draft.build with
  | .error error => ⟨.mistaken error, cluster, []⟩
  | .ok query => step query

def performScan (settings : Settings) (limit : Option Nat) (hooks : List ScanHook)
    (cluster : Cluster) (query : Query) : StepResult :=
  match ScannedCluster.scan HookedCollection.accept settings.retryTimeout query cluster
    ⟨⟨limit, []⟩, hooks, []⟩ with
  | none => ⟨.neverEnds, cluster, []⟩
  | some run =>
    let sink := run.state.sink
    ⟨.scanned run.result sink.collection.entries sink.answers, run.state.cluster, run.events⟩

/-- Takes one sample of the outstanding work and judges it. -/
def performSample (settings : Settings) (cluster : Cluster) : StepResult :=
  match AttendedCluster.sample settings cluster with
  | (.ok sample, next) =>
    let quiescent := sample.showsQuiescence settings.clockReadTicks
    ⟨.sampled sample quiescent (sample.verdictUnder settings), next, []⟩
  | (.error error, next) => ⟨.answered (.failed error), next, []⟩

def performWait (settings : Settings) (cancellation : Cancellation) (visits : List Visit)
    (cluster : Cluster) : StepResult :=
  match AttendedCluster.wait settings cancellation visits cluster with
  | none => ⟨.neverEnds, cluster, []⟩
  | some run =>
    ⟨.waited run.result run.instant run.state.answers, run.state.cluster, run.events⟩

def performScanCommand (settings : Settings) (options : ScanOptions) (output errors : OutputPipe)
    (cluster : Cluster) : StepResult :=
  match ScanCommand.run settings options cluster output errors with
  | none => ⟨.neverEnds, cluster, []⟩
  | some run =>
    ⟨.scanCommandEnded run.result run.output.written run.errors.written, run.cluster, run.events⟩

def performWaitCommand (settings : Settings) (cancellation : Cancellation) (visits : List Visit)
    (errors : OutputPipe) (cluster : Cluster) : StepResult :=
  match WaitCommand.run settings cancellation visits cluster errors with
  | none => ⟨.neverEnds, cluster, []⟩
  | some run =>
    ⟨.waitCommandEnded run.result run.instant run.errors.written run.answers, run.cluster,
      run.events⟩

def performAction (settings : Settings) (cluster : Cluster) : SessionAction → StepResult
  | .operation operation => performOperation operation cluster
  | .openView draft =>
    withQuery draft cluster fun query => performOperation (.openView query) cluster
  | .row view actions => performRow view actions cluster
  | .scan draft limit hooks => withQuery draft cluster (performScan settings limit hooks cluster)
  | .sample => performSample settings cluster
  | .wait cancellation visits => performWait settings cancellation visits cluster
  | .load file =>
    let loaded := CellTable.load file cluster
    ⟨.loaded loaded.result, loaded.cluster, loaded.events⟩
  | .scanCommand options output errors => performScanCommand settings options output errors cluster
  | .waitCommand cancellation visits errors =>
    performWaitCommand settings cancellation visits errors cluster

/-- Carries out a step under its own settings or, without such, under those of the session. -/
def performStep (settings : Settings) (cluster : Cluster) (step : SessionStep) : StepResult :=
  match step.settings with
  | none => performAction settings cluster step.action
  | some draft =>
    match draft.validate with
    | .error error => ⟨.mistaken error, cluster, []⟩
    | .ok own => performAction own cluster step.action

def performSteps (settings : Settings) (cluster : Cluster) :
    List SessionStep → List SessionAnswer × List Event
  | [] => ([], [])
  | step :: rest =>
    let result := performStep settings cluster step
    let (answers, events) := performSteps settings result.cluster rest
    (result.answer :: answers, result.events ++ events)

def run (settings : Settings) (steps : List SessionStep) : List SessionAnswer × List Event :=
  performSteps settings .fresh steps

end Session

end DataflowOps
