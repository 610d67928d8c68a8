import DataflowOps.Event
import DataflowOps.Store.Snapshot

/-!
# Operations on a cluster

A cluster is an engine together with the views its clients hold open. Everything a client can do is
one operation, which is atomic and gives one answer; what several clients do is a list of
operations.
-/

namespace DataflowOps

/-- An open snapshot with the cursor of the row fetched last. -/
structure View where
  snapshot : Snapshot
  cursor : Option ColumnCursor := none
  deriving DecidableEq

/-- An engine and the views opened on it, numbered in the order of opening; a view that was released
keeps its number. -/
structure Cluster where
  engine : Engine
  views : List (Option View)
  deriving DecidableEq

/-- One atomic action of a client. -/
inductive Operation where
  | commit (batch : Batch)
  | readClock
  | countNotifications
  | peekClock
  | setAvailable (available : Bool)
  | openView (query : Query)
  | fetchRow (view : Nat)
  | fetchColumn (view : Nat)
  | release (view : Nat)
  deriving DecidableEq

inductive Answer where
  | committed (timestamp : Timestamp) (changes : Nat)
  | clock (timestamp : Timestamp)
  | count (notifications : Nat)
  | peeked (timestamp : Timestamp)
  | availability (available : Bool)
  | opened (view : Nat) (readAt : Timestamp)
  | row (row : Option Bytes)
  | column (column : Option (Column × Bytes))
  | released
  | failed (error : CallFailure)
  deriving DecidableEq

def Answer.events : Answer → List Event
  | .committed timestamp changes => [.batchCommitted timestamp changes]
  | _ => []

namespace View

/-- Fetches the next row and places the cursor before its first column. -/
def fetchRow (engine : Engine) (view : View) : Except CallFailure (Option Bytes) × View :=
  match view.snapshot.fetchRow engine with
  | (.ok (some row), snapshot) => (.ok (some row), ⟨snapshot, some (.atStart row)⟩)
  | (.ok none, snapshot) => (.ok none, ⟨snapshot, none⟩)
  | (.error error, _) => (.error error, view)

/-- Fetches the next column of the row fetched last; without such a row there is none. -/
def fetchColumn (engine : Engine) (view : View) :
    Except CallFailure (Option (Column × Bytes)) × View :=
  match view.cursor with
  | none => (.ok none, view)
  | some cursor =>
    let (answer, next) := cursor.fetchColumn engine view.snapshot
    (answer, { view with cursor := some next })

end View

namespace Cluster

def fresh : Cluster := ⟨.fresh, []⟩

def view? (cluster : Cluster) (number : Nat) : Option View :=
  cluster.views[number]?.join

/-- The cluster with the view of a number replaced, or released with `none`. -/
def setView (cluster : Cluster) (number : Nat) (view : Option View) : Cluster :=
  { cluster with views := cluster.views.set number view }

def perform (cluster : Cluster) : Operation → Answer × Cluster
  | .commit batch =>
    match cluster.engine.commit batch with
    | (.ok timestamp, engine) => (.committed timestamp batch.length, { cluster with engine })
    | (.error error, engine) => (.failed error, { cluster with engine })
  | .readClock =>
    match cluster.engine.readClock with
    | (.ok timestamp, engine) => (.clock timestamp, { cluster with engine })
    | (.error error, engine) => (.failed error, { cluster with engine })
  | .countNotifications =>
    match cluster.engine.countNotifications with
    | .ok count => (.count count, cluster)
    | .error error => (.failed error, cluster)
  | .peekClock => (.peeked cluster.engine.clock, cluster)
  | .setAvailable available =>
    (.availability available, { cluster with engine := { cluster.engine with available } })
  | .openView query =>
    match cluster.engine.openSnapshot query with
    | (.ok snapshot, engine) =>
      (.opened cluster.views.length snapshot.readAt,
        ⟨engine, cluster.views ++ [some ⟨snapshot, none⟩]⟩)
    | (.error error, engine) => (.failed error, { cluster with engine })
  | .fetchRow number =>
    match cluster.view? number with
    | none => (.released, cluster)
    | some view =>
      match view.fetchRow cluster.engine with
      | (.ok row, view) => (.row row, cluster.setView number (some view))
      | (.error error, view) => (.failed error, cluster.setView number (some view))
  | .fetchColumn number =>
    match cluster.view? number with
    | none => (.released, cluster)
    | some view =>
      match view.fetchColumn cluster.engine with
      | (.ok column, view) => (.column column, cluster.setView number (some view))
      | (.error error, view) => (.failed error, cluster.setView number (some view))
  | .release number => (.released, cluster.setView number none)

def performAll (cluster : Cluster) : List Operation → List Answer × Cluster
  | [] => ([], cluster)
  | operation :: rest =>
    let (answer, next) := cluster.perform operation
    let (answers, last) := next.performAll rest
    (answer :: answers, last)

end Cluster

def Answer.eventsOf (answers : List Answer) : List Event :=
  answers.flatMap Answer.events

end DataflowOps
