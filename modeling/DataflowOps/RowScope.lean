import DataflowOps.OperatorMistake
import DataflowOps.RowInterval

/-!
# Row scopes

A scan visits one row, the rows that begin with a stem, or a range of rows. The four options that
say so are independent on input; options of two different modes are refused and never settled by
precedence.
-/

namespace DataflowOps

/-- Which rows a scan visits. -/
inductive RowScope where
  | single (row : Bytes)
  | beginningWith (stem : Bytes)
  | between (first last : Option Bytes)
  deriving DecidableEq, Repr

/-- The row options of a scan as given, each at most once. -/
structure RowOptions where
  exactRow : Option Bytes := none
  rowStem : Option Bytes := none
  startRow : Option Bytes := none
  endRow : Option Bytes := none
  deriving DecidableEq, Repr

namespace RowOptions

def gives (options : RowOptions) : RowSelector → Bool
  | .exactRow => options.exactRow.isSome
  | .rowStem => options.rowStem.isSome
  | .startRow => options.startRow.isSome
  | .endRow => options.endRow.isSome

/-- The selectors given, in the order in which messages list them. -/
def given (options : RowOptions) : List RowSelector :=
  [.exactRow, .rowStem, .startRow, .endRow].filter options.gives

/-- The scope chosen by options of at most one mode. -/
def scope (options : RowOptions) : Except OperatorMistake RowScope :=
  match options.exactRow, options.rowStem, options.startRow, options.endRow with
  | some row, none, none, none => .ok (.single row)
  | none, some stem, none, none => .ok (.beginningWith stem)
  | none, none, first, last => .ok (.between first last)
  | _, _, _, _ => .error (.conflictingSelectors options.given)

end RowOptions

namespace RowScope

def all : RowScope := .between none none

def interval : RowScope → RowInterval
  | single row => .single row
  | beginningWith stem => .beginningWith stem
  | between first last => .between first last

end RowScope

end DataflowOps
