/-!
# Mistakes in what the operator asked for

These are found before the engine is contacted, and each names the input at fault.
-/

namespace DataflowOps

inductive RowSelector where
  | exactRow
  | rowStem
  | startRow
  | endRow
  deriving DecidableEq, Repr

def RowSelector.name : RowSelector → String
  | exactRow => "exact_row"
  | rowStem => "row_prefix"
  | startRow => "start_row"
  | endRow => "end_row"

/-- A mistake in a scan's options or in the sleep bounds of a wait. -/
inductive OperatorMistake where
  | conflictingSelectors (selectors : List RowSelector)
  | tooManyFields (specifier : String)
  | invertedSleepBounds (minimum maximum : Nat)
  deriving DecidableEq, Repr

def OperatorMistake.message : OperatorMistake → String
  | conflictingSelectors selectors =>
    "conflicting row selectors: " ++ ", ".intercalate (selectors.map RowSelector.name) ++
      " cannot be combined"
  | tooManyFields specifier => "column '" ++ specifier ++ "' has too many fields (indicated by ':')"
  | invertedSleepBounds minimum maximum =>
    s!"invalid backoff bounds: min sleep {minimum}s exceeds max sleep {maximum}s"

end DataflowOps
