import DataflowOps.Command.ExitStatus
import DataflowOps.Scan.Cluster
import DataflowOps.Settings

/-!
# The scan command

Prints a banner and then the selected part of the data, one line per cell. A scan without data and a
scan that fails are told by a last line. Once the output is closed nothing more is printed, and that
is no failure of the command.
-/

namespace DataflowOps

structure ScanOptions where
  exactRow : Option String := none
  rowStem : Option String := none
  startRow : Option String := none
  endRow : Option String := none
  columns : List String := []
  deriving DecidableEq, Repr

def ScanOptions.draft (options : ScanOptions) : QueryDraft where
  rows := {
    exactRow := options.exactRow.map Utf8.encode
    rowStem := options.rowStem.map Utf8.encode
    startRow := options.startRow.map Utf8.encode
    endRow := options.endRow.map Utf8.encode }
  columns := options.columns

namespace ScanCommand

/-- The first line of the output. -/
def banner (settings : Settings) : String :=
  "Scanning snapshot of data in '" ++ settings.application ++ "' application."

/-- The last line of a scan that did not print every row, and how the command then ends. -/
def conclusion : Except ScanFailure ScanTally → ExitStatus × Option String
  | .ok summary =>
    (.success, if summary.outcome = .noData then some "\nNo data found\n" else none)
  | .error error => (.engineFailure, some ("Scan failed - " ++ error.cause.message))

structure Run where
  result : Except ReportFailure ExitStatus
  cluster : Cluster
  output : OutputPipe
  errors : OutputPipe
  events : List Event

/-- Prints an entry of a cluster that nobody else acts on. -/
def printEntry (entry : Entry) (cluster : Cluster) (output : OutputPipe) :
    Delivery × Cluster × OutputPipe :=
  let (delivery, output) := output.printEntry entry
  (delivery, cluster, output)

/-- Prints the last line of a scan, if it has one, and completes the output. -/
def conclude (trailer : Option String) (output : OutputPipe) : Delivery × OutputPipe :=
  let (printed, output) : Delivery × OutputPipe :=
    match trailer with
    | none => (⟨true, []⟩, output)
    | some line => output.printLine line
  if printed.accepted then
    let finished := output.finish
    (⟨finished.accepted, printed.events ++ finished.events⟩, output)
  else (printed, output)

def closedEvents (delivery : Delivery) : List Event :=
  delivery.events ++ if delivery.accepted then [] else [.scanOutputClosed]

def run (settings : Settings) (options : ScanOptions) (cluster : Cluster)
    (output errors : OutputPipe) : Option Run :=
  match options.draft.build with
  | .error error =>
    let (result, errors) := ExitStatus.invalidConfig.report error.message errors
    some ⟨result, cluster, output, errors, []⟩
  | .ok query =>
    let (opening, output) := output.printLine (banner settings)
    if opening.accepted then
      (ScannedCluster.scan printEntry settings.retryTimeout query cluster output).map fun scan =>
        let (exit, trailer) := conclusion scan.result
        let (delivery, output) := conclude trailer scan.state.sink
        ⟨.ok exit, scan.state.cluster, output, errors, scan.events ++ closedEvents delivery⟩
    else some ⟨.ok .success, cluster, output, errors, closedEvents opening⟩

end ScanCommand

end DataflowOps
