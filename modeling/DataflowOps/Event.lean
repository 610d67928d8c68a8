import DataflowOps.CallFailure
import DataflowOps.RowInterval
import DataflowOps.Timestamp

/-!
# Log events

What the library reports while it works. An event is a value that carries its data; its severity,
its place in the library, its name and its fields are read off it here and nowhere else.
-/

namespace DataflowOps

inductive Severity where
  | debug
  | info
  | warning
  | error
  deriving DecidableEq, Repr

inductive FieldValue where
  | number (value : Nat)
  | text (value : String)
  deriving DecidableEq, Repr

inductive Event where
  | batchCommitted (timestamp : Timestamp) (changes : Nat)
  | waitStarted (workers : Nat)
  | workOutstanding (outstanding : Nat) (before after : Timestamp) (sleepSeconds : Nat)
  | processingFinished (polls : Nat) (clock : Timestamp)
  | waitCancelled (polls : Nat)
  | sampleFailed (polls : Nat) (error : CallFailure)
  | scanStarted (rows : RowInterval) (patterns : Nat)
  | scanSinkClosed (entries : Nat)
  | scanNoData
  | scanCompleted (rows entries : Nat)
  | scanFailed (entries : Nat) (error : CallFailure)
  | sinkWriteFailed (reason : String)
  | scanOutputClosed
  deriving DecidableEq, Repr

namespace Event

def severity : Event → Severity
  | batchCommitted .. | scanStarted .. | scanCompleted .. | sinkWriteFailed .. => .debug
  | waitStarted .. | workOutstanding .. | processingFinished .. | scanSinkClosed .. | scanNoData
  | scanOutputClosed => .info
  | waitCancelled .. => .warning
  | sampleFailed .. | scanFailed .. => .error

/-- The part of the library that reports the event. -/
def component : Event → String
  | batchCommitted .. => "inmem"
  | waitStarted .. | workOutstanding .. | processingFinished .. | waitCancelled ..
  | sampleFailed .. => "quiescence"
  | scanStarted .. | scanSinkClosed .. | scanNoData | scanCompleted .. | scanFailed ..
  | sinkWriteFailed .. => "scanner"
  | scanOutputClosed => "admin"

def name : Event → String
  | batchCommitted .. => "batch_committed"
  | waitStarted .. => "wait_started"
  | workOutstanding .. => "work_outstanding"
  | processingFinished .. => "processing_finished"
  | waitCancelled .. => "wait_cancelled"
  | sampleFailed .. => "sample_failed"
  | scanStarted .. => "scan_started"
  | scanSinkClosed .. => "scan_sink_closed"
  | scanNoData => "scan_no_data"
  | scanCompleted .. => "scan_completed"
  | scanFailed .. => "scan_failed"
  | sinkWriteFailed .. => "sink_write_failed"
  | scanOutputClosed => "scan_output_closed"

def message? : Event → Option String
  | waitStarted _ => some "the wait will exit when all notifications are processed"
  | workOutstanding outstanding _ _ sleepSeconds =>
    some (s!"{outstanding} notifications are still outstanding, " ++
      s!"will try again in {sleepSeconds} seconds")
  | processingFinished .. => some "all processing has finished"
  | scanNoData => some "no data found"
  | scanOutputClosed => some "output closed, nothing more will be printed"
  | _ => none

/-- The data of an event by field name; clock readings, errors and rows are logged as text. -/
def fields : Event → List (String × FieldValue)
  | batchCommitted timestamp changes =>
    [("ts", .text timestamp.text), ("mutations", .number changes)]
  | waitStarted workers => [("workers", .number workers)]
  | workOutstanding outstanding before after sleepSeconds =>
    [("outstanding", .number outstanding), ("clock_before", .text before.text),
      ("clock_after", .text after.text), ("sleep_secs", .number sleepSeconds)]
  | processingFinished polls clock => [("polls", .number polls), ("clock", .text clock.text)]
  | waitCancelled polls => [("polls", .number polls)]
  | sampleFailed polls error => [("polls", .number polls), ("error", .text error.message)]
  | scanStarted rows patterns => [("span", .text rows.text), ("columns", .number patterns)]
  | scanSinkClosed entries => [("entries", .number entries)]
  | scanCompleted rows entries => [("rows", .number rows), ("entries", .number entries)]
  | scanFailed entries error => [("entries", .number entries), ("error", .text error.message)]
  | sinkWriteFailed reason => [("error", .text reason)]
  | scanNoData | scanOutputClosed => []

end Event

/-- An event as it stands in the log. -/
structure LogLine where
  severity : Severity
  component : String
  name : String
  fields : List (String × FieldValue)
  message? : Option String
  deriving DecidableEq, Repr

def Event.line (event : Event) : LogLine :=
  ⟨event.severity, event.component, event.name, event.fields, event.message?⟩

end DataflowOps
