import DataflowOps.ColumnPattern
import DataflowOps.Store.Cluster
import DataflowOps.Text.Blank
import DataflowOps.Text.Lines

/-!
# Tables of cells

A table file lists one cell per line: row, column and value with tabs between them; the value may
hold further tabs. Blank lines and lines that begin with a hash sign are skipped. A file is loaded
as one commit, or not at all if one of its lines is malformed.
-/

namespace DataflowOps

inductive LineFault where
  | notText
  | missingFields
  | invalidColumn (error : OperatorMistake)
  deriving DecidableEq, Repr

/-- Failure to load a table. Lines are counted from one. -/
inductive LoadFailure where
  | malformedLine (number : Nat) (fault : LineFault)
  | engine (error : CallFailure)
  deriving DecidableEq, Repr

namespace LoadFailure

def headline : LoadFailure → String
  | malformedLine number .notText => s!"failed to read line {number}"
  | malformedLine number .missingFields => s!"line {number}: expected row<TAB>column<TAB>value"
  | malformedLine number (.invalidColumn _) => s!"line {number}: invalid column"
  | engine _ => "failed to load data"

def cause? : LoadFailure → Option String
  | malformedLine _ .notText => some "stream did not contain valid UTF-8"
  | malformedLine _ .missingFields => none
  | malformedLine _ (.invalidColumn error) => some error.message
  | engine error => some error.message

/-- What failed and the failure behind it in one line. -/
def message (error : LoadFailure) : String :=
  match error.cause? with
  | none => error.headline
  | some cause => error.headline ++ ": " ++ cause

end LoadFailure

namespace CellTable

/-- Whether a line carries no cell. -/
def isSkipped (line : List Char) : Bool :=
  line.all Blank.isBlank || line.head? == some '#'

/-- The column named by a pattern; a family alone names its column with empty qualifier. -/
def columnOf : ColumnPattern → Column
  | .family name => ⟨name, []⟩
  | .column name qualifier => ⟨name, qualifier⟩

/-- What stands before the first tab and what stands behind it. -/
def cutAtTab (characters : List Char) : Option (List Char × List Char) :=
  match characters.dropWhile (· ≠ '\t') with
  | [] => none
  | _ :: rest => some (characters.takeWhile (· ≠ '\t'), rest)

def parseCell (line : List Char) : Except LineFault Change :=
  match cutAtTab line with
  | none => .error .missingFields
  | some (row, rest) =>
    match cutAtTab rest with
    | none => .error .missingFields
    | some (column, value) =>
      match ColumnPattern.parse (String.ofList column) with
      | .error error => .error (.invalidColumn error)
      | .ok pattern =>
        .ok (.set ⟨Utf8.encodeChars row, columnOf pattern⟩ (Utf8.encodeChars value))

def parseLine (line : Bytes) : Except LineFault (Option Change) :=
  match Utf8.decode? line with
  | none => .error .notText
  | some characters =>
    if isSkipped characters then .ok none else (parseCell characters).map some

/-- The cells of lines of which the first has the given number. -/
def parseLines (number : Nat) : List Bytes → Except LoadFailure Batch
  | [] => .ok []
  | line :: rest =>
    match parseLine line with
    | .error fault => .error (.malformedLine number fault)
    | .ok none => parseLines (number + 1) rest
    | .ok (some cell) => (parseLines (number + 1) rest).map (cell :: ·)

def parse (file : Bytes) : Except LoadFailure Batch :=
  parseLines 1 (Lines.split file)

/-- A load that has ended: the number of cells, the cluster left behind and what was reported. -/
structure Loaded where
  result : Except LoadFailure Nat
  cluster : Cluster
  events : List Event

/-- Loads a table file as one commit; a file without cells commits nothing. -/
def load (file : Bytes) (cluster : Cluster) : Loaded :=
  match parse file with
  | .error error => ⟨.error error, cluster, []⟩
  | .ok [] => ⟨.ok 0, cluster, []⟩
  | .ok batch =>
    match cluster.perform (.commit batch) with
    | (.failed error, next) => ⟨.error (.engine error), next, []⟩
    | (answer, next) => ⟨.ok batch.length, next, answer.events⟩

end CellTable

end DataflowOps
