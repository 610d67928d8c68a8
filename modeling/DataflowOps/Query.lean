import DataflowOps.ColumnPattern
import DataflowOps.RowScope

/-!
# Scan queries

A query is an interval of rows and a set of column patterns. It is built from a draft, which
collects the options of a scan in any order; row options are judged before column specifiers, and of
several faulty specifiers the first one is reported.
-/

namespace DataflowOps

/-- A validated request for a part of the data. -/
structure Query where
  rows : RowInterval
  patterns : ColumnPattern.Collection
  deriving DecidableEq

namespace Query

def build (scope : RowScope) (specifiers : List String) : Except OperatorMistake Query := do
  let patterns ← specifiers.mapM ColumnPattern.parse
  return ⟨scope.interval, .ofList patterns⟩

/-- Whether a column matches a pattern of the query; without patterns every column does. -/
def selects (query : Query) (column : Column) : Bool :=
  query.patterns.keys.isEmpty || query.patterns.keys.any (·.accepts column)

end Query

structure QueryDraft where
  rows : RowOptions := {}
  columns : List String := []
  deriving DecidableEq, Repr

/-- One option of a scan. A row option replaces an earlier value of the same option, column
specifiers are added to those before them. -/
inductive QueryOption where
  | exactRow (row : Bytes)
  | rowStem (stem : Bytes)
  | startRow (row : Bytes)
  | endRow (row : Bytes)
  | column (specifier : String)
  | columns (specifiers : List String)
  deriving DecidableEq, Repr

namespace QueryDraft

def add (draft : QueryDraft) : QueryOption → QueryDraft
  | .exactRow row => { draft with rows := { draft.rows with exactRow := some row } }
  | .rowStem stem => { draft with rows := { draft.rows with rowStem := some stem } }
  | .startRow row => { draft with rows := { draft.rows with startRow := some row } }
  | .endRow row => { draft with rows := { draft.rows with endRow := some row } }
  | .column specifier => { draft with columns := draft.columns ++ [specifier] }
  | .columns specifiers => { draft with columns := draft.columns ++ specifiers }

def ofOptions (options : List QueryOption) : QueryDraft :=
  options.foldl add {}

def scope (draft : QueryDraft) : Except OperatorMistake RowScope :=
  draft.rows.scope

def build (draft : QueryDraft) : Except OperatorMistake Query := do
  let scope ← draft.scope
  Query.build scope draft.columns

end QueryDraft

end DataflowOps
