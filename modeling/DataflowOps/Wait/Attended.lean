import DataflowOps.Wait.Run
import DataflowOps.Store.Cluster

/-!
# Waiting on a cluster

A wait on a cluster in memory, which other clients visit at given instants while it sleeps. The
engine answers at once, so time passes in the sleeps alone.
-/

namespace DataflowOps

/-- Operations that other clients perform at one instant. -/
structure Visit where
  instant : Nat
  operations : List Operation
  deriving DecidableEq

namespace Visit

/-- Puts a visit before the first one that is not earlier. -/
def insert (visit : Visit) : List Visit → List Visit
  | [] => [visit]
  | other :: rest =>
    if visit.instant ≤ other.instant then visit :: other :: rest else other :: insert visit rest

/-- The visits in the order of their instants; those of one instant keep their order. -/
def inOrder : List Visit → List Visit
  | [] => []
  | visit :: rest => insert visit (inOrder rest)

end Visit

/-- A cluster with the visits still to come, in order, and the answers given to those that were
made. -/
structure AttendedCluster where
  cluster : Cluster
  upcoming : List Visit
  answers : List (List Answer)
  deriving DecidableEq

namespace AttendedCluster

/-- Makes the visits that are due up to `instant`, of visits in the order of their instants. -/
def visitUntil (instant : Nat) (cluster : Cluster) :
    List Visit → List (List Answer) × Cluster × List Visit
  | [] => ([], cluster, [])
  | visit :: rest =>
    if visit.instant ≤ instant then
      let (answers, next) := cluster.performAll visit.operations
      let (later, last, upcoming) := visitUntil instant next rest
      (answers :: later, last, upcoming)
    else ([], cluster, visit :: rest)

/-- The source that samples the cluster and lets the visits happen in its sleeps. -/
def source : BacklogSource AttendedCluster where
  readClock attended :=
    let (result, engine) := attended.cluster.engine.readClock
    (.immediate result, { attended with cluster := { attended.cluster with engine } })
  countOutstanding attended :=
    (.immediate attended.cluster.engine.countNotifications, attended)
  sleepUntil instant attended :=
    let (answers, cluster, upcoming) := visitUntil instant attended.cluster attended.upcoming
    (answers.flatMap Answer.eventsOf, ⟨cluster, upcoming, attended.answers ++ answers⟩)

/-- The last instant at which anything but the wait itself can happen. -/
def horizon (cancellation : Cancellation) (visits : List Visit) : Nat :=
  let cancelled :=
    match cancellation with
    | .atInstant instant => instant
    | .never | .beforeStart => 0
  (visits.map Visit.instant).foldl max cancelled

/-- Polls after which the wait has ended or never ends. Polls with work left are at least a second
apart, unless no time passes between them at all; the last of these polls lies past the horizon, and
from there on every sample is judged as that one. -/
def pollLimit (cancellation : Cancellation) (visits : List Visit) : Nat :=
  horizon cancellation visits / 1000 + 2

/-- Waits on a cluster that other clients visit. There is no result for a wait that never ends. -/
def wait (settings : Settings) (cancellation : Cancellation) (visits : List Visit)
    (cluster : Cluster) : Option (WaitRun AttendedCluster) :=
  source.wait settings cancellation (pollLimit cancellation visits)
    ⟨cluster, Visit.inOrder visits, []⟩

def sample (settings : Settings) (cluster : Cluster) : Except CallFailure BacklogSample × Cluster :=
  let sampled := source.sample settings.retryTimeout 0 ⟨cluster, [], []⟩
  (sampled.result, sampled.state.cluster)

end AttendedCluster

end DataflowOps
