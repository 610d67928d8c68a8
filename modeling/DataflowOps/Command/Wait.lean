import DataflowOps.Command.ExitStatus
import DataflowOps.Wait.Attended

/-!
# The wait command

Blocks until the cluster is quiescent or the operator cancels the wait. A wait that fails tells the
cause on the error output.
-/

namespace DataflowOps.WaitCommand

structure Run where
  result : Except ReportFailure ExitStatus
  instant : Nat
  cluster : Cluster
  answers : List (List Answer)
  errors : OutputPipe
  events : List Event

/-- How the command ends after a wait, and what it leaves on its error output. -/
def conclude (errors : OutputPipe) :
    Except WaitFailure WaitEnd → Except ReportFailure ExitStatus × OutputPipe
  | .ok (.finished _) => (.ok .success, errors)
  | .ok (.cancelled _) => (.ok .cancelled, errors)
  | .error error => ExitStatus.engineFailure.report ("Wait failed - " ++ error.message) errors

/-- Runs the wait command on a cluster that other clients visit. There is no result for a wait that
never ends. -/
def run (settings : Settings) (cancellation : Cancellation) (visits : List Visit)
    (cluster : Cluster) (errors : OutputPipe) : Option Run :=
  (AttendedCluster.wait settings cancellation visits cluster).map fun wait =>
    let (result, errors) := conclude errors wait.result
    ⟨result, wait.instant, wait.state.cluster, wait.state.answers, errors, wait.events⟩

end DataflowOps.WaitCommand
