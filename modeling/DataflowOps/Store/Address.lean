import DataflowOps.Column
import DataflowOps.Timestamp

/-!
# Addresses in the store

A cell is addressed by its row and column, a stored version by its cell and the timestamp of the
commit that wrote it. Versions are ordered by cell and within a cell from the newest to the oldest,
so that the first version met at or below a read timestamp is the visible one.
-/

namespace DataflowOps

structure CellAddress where
  row : Bytes
  column : Column
  deriving DecidableEq, Repr

namespace CellAddress

/-- The parts of an address in the order in which they are compared. -/
def parts (cell : CellAddress) : Bytes × Column :=
  (cell.row, cell.column)

theorem parts_injective {left right : CellAddress} (equal : left.parts = right.parts) :
    left = right := by
  cases left; cases right; simpa [parts] using equal

instance : LT CellAddress := ⟨fun left right => Prod.lexLt left.parts right.parts⟩

instance : DecidableLT CellAddress :=
  fun left right => inferInstanceAs (Decidable (Prod.lexLt left.parts right.parts))

instance : StrictTotalOrder CellAddress where
  irrefl cell := StrictTotalOrder.lexLt_irrefl cell.parts
  trans := StrictTotalOrder.lexLt_trans
  connected notBefore notAfter :=
    parts_injective (StrictTotalOrder.lexLt_connected notBefore notAfter)

end CellAddress

/-- A timestamp in the order from the newest to the oldest. -/
structure NewestFirst where
  timestamp : Timestamp
  deriving DecidableEq, Repr

namespace NewestFirst

instance : LT NewestFirst := ⟨fun left right => right.timestamp < left.timestamp⟩

instance : DecidableLT NewestFirst :=
  fun left right => inferInstanceAs (Decidable (right.timestamp < left.timestamp))

instance : StrictTotalOrder NewestFirst where
  irrefl age := @StrictTotalOrder.irrefl Timestamp _ _ age.timestamp
  trans lowBefore middleBefore :=
    @StrictTotalOrder.trans Timestamp _ _ _ _ _ middleBefore lowBefore
  connected {left right} notBefore notAfter := by
    cases left; cases right
    exact congrArg _ (@StrictTotalOrder.connected Timestamp _ _ _ _ notAfter notBefore)

end NewestFirst

/-- The address of one version of a cell. -/
structure VersionAddress where
  cell : CellAddress
  timestamp : Timestamp
  deriving DecidableEq, Repr

namespace VersionAddress

def parts (version : VersionAddress) : CellAddress × NewestFirst :=
  (version.cell, ⟨version.timestamp⟩)

theorem parts_injective {left right : VersionAddress} (equal : left.parts = right.parts) :
    left = right := by
  cases left; cases right; simpa [parts] using equal

instance : LT VersionAddress := ⟨fun left right => Prod.lexLt left.parts right.parts⟩

instance : DecidableLT VersionAddress :=
  fun left right => inferInstanceAs (Decidable (Prod.lexLt left.parts right.parts))

instance : StrictTotalOrder VersionAddress where
  irrefl version := StrictTotalOrder.lexLt_irrefl version.parts
  trans := StrictTotalOrder.lexLt_trans
  connected notBefore notAfter :=
    parts_injective (StrictTotalOrder.lexLt_connected notBefore notAfter)

/-- The address at which a seek for a row starts: no version of a cell of `row` precedes it. -/
def floor (row : Bytes) : VersionAddress :=
  ⟨⟨row, .least⟩, .last⟩

end VersionAddress

end DataflowOps
