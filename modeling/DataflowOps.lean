import DataflowOps.Main
import DataflowOps.Wait.Script
import DataflowOps.Scan.Script
import DataflowOps.Session
import DataflowOps.Proofs.Operations
import DataflowOps.Proofs.Fetches
import DataflowOps.Proofs.Isolation
import DataflowOps.Proofs.History
import DataflowOps.Proofs.ScanWalk
import DataflowOps.Proofs.ScanContents
import DataflowOps.Proofs.Window
import DataflowOps.Proofs.ScriptedWait
import DataflowOps.Proofs.CancelledWait
import DataflowOps.Proofs.ScriptedScan
import DataflowOps.Proofs.Bookkeeping
import DataflowOps.Proofs.ColumnPasses
import DataflowOps.Proofs.AttendedWait
import DataflowOps.Proofs.PrintedScan
import DataflowOps.Proofs.LoadedTable
import DataflowOps.Proofs.TableFaults
import DataflowOps.Proofs.RowSequence
import DataflowOps.Proofs.OptionSequences
import DataflowOps.Proofs.Specifiers
import DataflowOps.Proofs.ClosingPipe
import DataflowOps.Proofs.VerdictArithmetic
import DataflowOps.Proofs.WaitLog
import DataflowOps.Proofs.PlacedOptions
import DataflowOps.Proofs.RowSeek
import DataflowOps.Proofs.ScanLog
import DataflowOps.Proofs.StoreLayout
