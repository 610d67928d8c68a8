import DataflowOps.Text.Utf8

/-!
# Columns

A stored column is a family and a qualifier, both byte strings. Columns are ordered by family and
then by qualifier, and shown as the two parts with a colon between them.
-/

namespace DataflowOps

structure Column where
  family : Bytes
  qualifier : Bytes
  deriving DecidableEq, Repr

namespace Column

/-- The sign between family and qualifier in written columns. -/
def separator : Char := ':'

def least : Column := ⟨[], []⟩

/-- The parts of a column in the order in which they are compared. -/
def parts (column : Column) : Bytes × Bytes :=
  (column.family, column.qualifier)

theorem parts_injective {left right : Column} (equal : left.parts = right.parts) :
    left = right := by
  cases left; cases right; simpa [parts] using equal

instance : LT Column := ⟨fun left right => Prod.lexLt left.parts right.parts⟩

instance : DecidableLT Column :=
  fun left right => inferInstanceAs (Decidable (Prod.lexLt left.parts right.parts))

instance : StrictTotalOrder Column where
  irrefl column := StrictTotalOrder.lexLt_irrefl column.parts
  trans := StrictTotalOrder.lexLt_trans
  connected notBefore notAfter :=
    parts_injective (StrictTotalOrder.lexLt_connected notBefore notAfter)

/-- Columns in ascending order, repetitions kept. -/
def sort (columns : List Column) : List Column :=
  columns.mergeSort fun left right => !decide (right < left)

/-- The text of a column; malformed bytes are shown by replacement characters. -/
def text (column : Column) : String :=
  Utf8.lenient column.family ++ separator.toString ++ Utf8.lenient column.qualifier

end Column

end DataflowOps
