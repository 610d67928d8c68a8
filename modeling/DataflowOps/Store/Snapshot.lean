import DataflowOps.Query
import DataflowOps.Store.Engine

/-!
# Snapshots

A snapshot reads the engine as of the timestamp at which it was opened. It holds no copy of the
data: every fetch seeks the store again from where the last one ended, and skips versions that are
newer than the snapshot as well as all but the newest visible version of each cell. Rows are handed
out in ascending order, the columns of a row by a cursor of its own.
-/

namespace DataflowOps

/-- An open snapshot: what it reads and where its row sequence continues. -/
structure Snapshot where
  readAt : Timestamp
  query : Query
  continuation : Bound Bytes
  atEnd : Bool
  deriving DecidableEq

/-- The position in the columns of one row: the version after which the next fetch resumes, and the
cell whose visible version has been met last. -/
structure ColumnCursor where
  row : Bytes
  lastMet : Option VersionAddress := none
  settled : Option CellAddress := none
  deriving DecidableEq

def Engine.openSnapshot (query : Query) (engine : Engine) :
    Except CallFailure Snapshot × Engine :=
  match engine.readClock with
  | (.ok readAt, ticked) => (.ok ⟨readAt, query, query.rows.lower, query.rows.isEmpty⟩, ticked)
  | (.error error, same) => (.error error, same)

namespace Snapshot

/-- The address from which the row sequence seeks for a row at or past `start`. -/
def seekStart : (start : Bound Bytes) → Bound VersionAddress
  | .unbounded => .unbounded
  | .included row => .included (.floor row)
  | .excluded row => .included (.floor row.successor)

/-- The first row among versions in ascending order that has a visible value in a wanted column,
looked for up to the end of the query's rows. `settled` is the cell whose visible version precedes
these versions. -/
def leastVisibleRowAmong (query : Query) (readAt : Timestamp) :
    (settled : Option CellAddress) → List (VersionAddress × Option Bytes) → Option Bytes
  | _, [] => none
  | settled, (version, value) :: rest =>
    if !query.rows.belowUpper version.cell.row then none
    else if readAt < version.timestamp ∨ settled = some version.cell then
      leastVisibleRowAmong query readAt settled rest
    else if value.isSome && query.selects version.cell.column then some version.cell.row
    else leastVisibleRowAmong query readAt (some version.cell) rest

/-- The first row at or past `start` that has a visible value in a wanted column and lies before the
end of the query's rows. -/
def leastVisibleRow (start : Bound Bytes) (query : Query) (readAt : Timestamp) (engine : Engine) :
    Option Bytes :=
  leastVisibleRowAmong query readAt none (engine.versions.entriesFrom (seekStart start))

/-- Fetches the next row; `none` once there is none left. -/
def fetchRow (engine : Engine) (snapshot : Snapshot) :
    Except CallFailure (Option Bytes) × Snapshot :=
  if !engine.available then (.error Engine.offline, snapshot)
  else if snapshot.atEnd then (.ok none, snapshot)
  else
    match leastVisibleRow snapshot.continuation snapshot.query snapshot.readAt engine with
    | none => (.ok none, { snapshot with atEnd := true })
    | some row => (.ok (some row), { snapshot with continuation := .excluded row })

end Snapshot

namespace ColumnCursor

def atStart (row : Bytes) : ColumnCursor := ⟨row, none, none⟩

def seekStart (cursor : ColumnCursor) : Bound VersionAddress :=
  match cursor.lastMet with
  | some version => .excluded version
  | none => .included (.floor cursor.row)

/-- The first visible value in a wanted column of the cursor's row among versions in ascending
order, and the cursor after the last version of the row that was met. -/
def advance (query : Query) (readAt : Timestamp) (cursor : ColumnCursor) :
    List (VersionAddress × Option Bytes) → Option (Column × Bytes) × ColumnCursor
  | [] => (none, cursor)
  | (version, value) :: rest =>
    if version.cell.row ≠ cursor.row then (none, cursor)
    else
      let passed := { cursor with lastMet := some version }
      if readAt < version.timestamp ∨ cursor.settled = some version.cell then
        advance query readAt passed rest
      else
        let seen := { passed with settled := some version.cell }
        match value with
        | some value =>
          if query.selects version.cell.column then (some (version.cell.column, value), seen)
          else advance query readAt seen rest
        | none => advance query readAt seen rest

/-- Fetches the next column of the cursor's row; `none` at the end of the row. The position to
resume from is used up by each fetch and set again by every version it meets, so a fetch that meets
none, past the end of the row, leaves the cursor at the start of the row. -/
def fetchColumn (engine : Engine) (snapshot : Snapshot) (cursor : ColumnCursor) :
    Except CallFailure (Option (Column × Bytes)) × ColumnCursor :=
  if !engine.available then (.error Engine.offline, cursor)
  else
    let (answer, next) := advance snapshot.query snapshot.readAt { cursor with lastMet := none }
      (engine.versions.entriesFrom cursor.seekStart)
    (.ok answer, next)

end ColumnCursor

end DataflowOps
