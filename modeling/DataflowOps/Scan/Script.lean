import DataflowOps.Scan.Run

/-!
# Scanning a script

A script fixes the replies to the calls of a scan beforehand: one to the opening, one per row, and
within each row one per column. When the replies are used up, the row or the sequence of rows has
ended.
-/

namespace DataflowOps

/-- The reply to the fetch of a row, and those to the fetches of its columns. -/
structure RowScript where
  reply : Reply Bytes
  columns : List (Reply (Column × Bytes))

/-- The replies still to be given, and how many views have been closed. -/
structure ScanScript where
  opening : Reply Unit
  rows : List RowScript
  columns : List (Reply (Column × Bytes)) := []
  closedViews : Nat := 0

namespace ScanScript

def system {Sink : Type} (accept : Entry → Sink → Delivery × Sink) :
    ScanSystem (ScanScript × Sink) where
  openView _ state := (state.1.opening, state)
  fetchRow state :=
    match state.1.rows with
    | [] => (.immediate (.ok none), state)
    | row :: rest =>
      (row.reply.map some, ({ state.1 with rows := rest, columns := row.columns }, state.2))
  fetchColumn state :=
    match state.1.columns with
    | [] => (.immediate (.ok none), state)
    | reply :: rest => (reply.map some, ({ state.1 with columns := rest }, state.2))
  accept entry state :=
    let (delivery, sink) := accept entry state.2
    (delivery, (state.1, sink))
  closeView state := ({ state.1 with closedViews := state.1.closedViews + 1 }, state.2)

/-- Fetches after which a scan of the script has ended: for each row itself, its columns and its
end, and the end of the rows. -/
def fetchLimit (script : ScanScript) : Nat :=
  script.rows.foldr (fun row fetches => row.columns.length + 2 + fetches) 1

def scan {Sink : Type} (accept : Entry → Sink → Delivery × Sink) (timeout : Nat)
    (query : Query) (script : ScanScript) (sink : Sink) :
    Option (ScanRun (ScanScript × Sink)) :=
  (system accept).scan timeout script.fetchLimit query (script, sink)

end ScanScript

end DataflowOps
