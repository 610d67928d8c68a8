import DataflowOps.Bound
import DataflowOps.Bytes

/-!
# Row intervals

An interval is one contiguous range of row keys, given by its two ends. Exact rows, row stems and
ranges between optional rows are all intervals.
-/

namespace DataflowOps

/-- A contiguous range of row keys with independent ends. -/
structure RowInterval where
  lower : Bound Bytes
  upper : Bound Bytes
  deriving DecidableEq, Repr

namespace RowInterval

def all : RowInterval := ⟨.unbounded, .unbounded⟩

def single (row : Bytes) : RowInterval := ⟨.included row, .included row⟩

def beginningWith (stem : Bytes) : RowInterval where
  lower := if stem.isEmpty then .unbounded else .included stem
  upper :=
    match stem.leastAboveExtensions? with
    | some bound => .excluded bound
    | none => .unbounded

/-- The interval between optional rows, both included. -/
def between (first last : Option Bytes) : RowInterval :=
  ⟨.ofOption first, .ofOption last⟩

def isAll (interval : RowInterval) : Bool :=
  interval == all

def aboveLower (interval : RowInterval) (row : Bytes) : Bool :=
  interval.lower.admitsFromBelow row

def belowUpper (interval : RowInterval) (row : Bytes) : Bool :=
  interval.upper.admitsFromAbove row

def contains (interval : RowInterval) (row : Bytes) : Bool :=
  interval.aboveLower row && interval.belowUpper row

/-- Whether the two ends leave no room for a row, judged by comparing them: two included ends need
the lower one not to exceed the upper one, otherwise the lower one has to precede the upper one. -/
def isEmpty (interval : RowInterval) : Bool :=
  match interval.lower, interval.upper with
  | .unbounded, _ | _, .unbounded => false
  | .included low, .included high => decide (high < low)
  | .included low, .excluded high | .excluded low, .included high
  | .excluded low, .excluded high => !decide (low < high)

/-- The text that shows an interval, with both of its ends. -/
def text (interval : RowInterval) : String :=
  "Span \x7b start: " ++ interval.lower.text Bytes.text ++ ", end: " ++
    interval.upper.text Bytes.text ++ " \x7d"

end RowInterval

end DataflowOps
