import DataflowOps.OutputPipe

/-!
# Ends of a command

How a command can end, and the status with which the process then exits. A command that cannot even
report its failure, because nobody reads its error output, fails itself.
-/

namespace DataflowOps

inductive ExitStatus where
  | success
  | engineFailure
  | invalidConfig
  | cancelled
  deriving DecidableEq, Repr

def ExitStatus.code : ExitStatus → Nat
  | success => 0
  | engineFailure => 1
  | invalidConfig => 2
  | cancelled => 130

inductive ReportFailure where
  | errorOutputClosed
  deriving DecidableEq, Repr

def ReportFailure.message : ReportFailure → String
  | errorOutputClosed => OutputPipe.brokenPipe

/-- Reports the end of a command by a line on its error output. -/
def ExitStatus.report (exit : ExitStatus) (text : String) (errors : OutputPipe) :
    Except ReportFailure ExitStatus × OutputPipe :=
  match errors.writeLine text with
  | (true, errors) => (.ok exit, errors)
  | (false, errors) => (.error .errorOutputClosed, errors)

end DataflowOps
