import DataflowOps.Scan.Run
import DataflowOps.Store.Cluster

/-!
# Scanning a cluster

A scan of a cluster in memory, on which other clients may act right after the destination has
accepted an entry. The scan reads its own view, so what they do does not change what it hands out.
-/

namespace DataflowOps

/-- A cluster, the view of the scan while it is open, and the destination of the entries. -/
structure ScannedCluster (Sink : Type) where
  cluster : Cluster
  view : Option View
  sink : Sink

namespace ScannedCluster

/-- The scan of a cluster. Accepting an entry may act on the cluster as well as on the
destination. -/
def system {Sink : Type} (accept : Entry → Cluster → Sink → Delivery × Cluster × Sink) :
    ScanSystem (ScannedCluster Sink) where
  openView query state :=
    match state.cluster.engine.openSnapshot query with
    | (.ok snapshot, engine) =>
      (.immediate (.ok ()),
        { state with cluster := { state.cluster with engine }, view := some ⟨snapshot, none⟩ })
    | (.error error, engine) =>
      (.immediate (.error error), { state with cluster := { state.cluster with engine } })
  fetchRow state :=
    match state.view with
    | none => (.immediate (.ok none), state)
    | some view =>
      let (answer, view) := view.fetchRow state.cluster.engine
      (.immediate answer, { state with view := some view })
  fetchColumn state :=
    match state.view with
    | none => (.immediate (.ok none), state)
    | some view =>
      let (answer, view) := view.fetchColumn state.cluster.engine
      (.immediate answer, { state with view := some view })
  accept entry state :=
    let (delivery, cluster, sink) := accept entry state.cluster state.sink
    (delivery, { state with cluster, sink })
  closeView state := { state with view := none }

/-- Fetches after which a scan of the cluster has ended: no more rows and no more columns are
visible than versions are stored, and every row and the sequence of rows take one more fetch to
end. -/
def fetchLimit (cluster : Cluster) : Nat :=
  3 * cluster.engine.versions.size + 1

def scan {Sink : Type} (accept : Entry → Cluster → Sink → Delivery × Cluster × Sink)
    (timeout : Nat) (query : Query) (cluster : Cluster) (sink : Sink) :
    Option (ScanRun (ScannedCluster Sink)) :=
  (system accept).scan timeout (fetchLimit cluster) query ⟨cluster, none, sink⟩

end ScannedCluster

/-- Operations that other clients perform right after a number of entries has been accepted. -/
structure ScanHook where
  entries : Nat
  operations : List Operation
  deriving DecidableEq

/-- A collection of entries with the operations of other clients and the answers these were
given. -/
structure HookedCollection where
  collection : EntryCollection
  hooks : List ScanHook
  answers : List (List Answer) := []
  deriving DecidableEq

namespace HookedCollection

/-- Lets the clients act who wait for the number of accepted entries. -/
def runHooks (accepted : Nat) (cluster : Cluster) : List ScanHook → List (List Answer) × Cluster
  | [] => ([], cluster)
  | hook :: rest =>
    if hook.entries = accepted then
      let (answers, next) := cluster.performAll hook.operations
      let (later, last) := runHooks accepted next rest
      (answers :: later, last)
    else runHooks accepted cluster rest

/-- Collects an entry, and if it was accepted lets other clients act. -/
def accept (entry : Entry) (cluster : Cluster) (sink : HookedCollection) :
    Delivery × Cluster × HookedCollection :=
  let (delivery, collection) := sink.collection.accept entry
  if delivery.accepted then
    let (answers, next) := runHooks collection.entries.length cluster sink.hooks
    (⟨true, delivery.events ++ answers.flatMap Answer.eventsOf⟩, next,
      { sink with collection, answers := sink.answers ++ answers })
  else (delivery, cluster, { sink with collection })

end HookedCollection

end DataflowOps
