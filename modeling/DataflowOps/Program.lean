import DataflowOps.CellTable
import DataflowOps.Command.Wait
import DataflowOps.CommandLine.Invocation

/-!
# The operator's program

A run of the program reads the command line, loads the data file into a fresh cluster and runs the
command on it. Mistaken settings are found before the data is opened, and data that cannot be opened
or loaded keeps the command from running.
-/

namespace DataflowOps.Program

structure Outcome where
  code : Nat
  output : Bytes
  errors : Bytes
  deriving DecidableEq, Repr

def failureCode : Nat := 1

/-- What a process reports that could not run its command: what failed, and the failure behind it
in a paragraph of its own. -/
def failureReport (headline : String) (cause : Option String) : String :=
  let paragraph :=
    match cause with
    | none => ""
    | some cause => "\nCaused by:\n    " ++ cause ++ "\n"
  "Error: " ++ headline ++ "\n" ++ paragraph

def failure (headline : String) (cause : Option String) : Outcome :=
  ⟨failureCode, [], Utf8.encode (failureReport headline cause)⟩

def mistaken (error : OperatorMistake) : Outcome :=
  ⟨ExitStatus.invalidConfig.code, [], Utf8.encode (error.message ++ "\n")⟩

def ended (result : Except ReportFailure ExitStatus) (output errors : Bytes) : Outcome :=
  match result with
  | .ok exit => ⟨exit.code, output, errors⟩
  | .error error =>
    ⟨failureCode, output, errors ++ Utf8.encode (failureReport error.message none)⟩

/-- Runs a command on a cluster. There is no outcome when it never ends. -/
def runCommand (settings : Settings) (cluster : Cluster) :
    OperatorCommand → Option Outcome
  | .scan options =>
    (ScanCommand.run settings options cluster {} {}).map fun run =>
      ended run.result run.output.written run.errors.written
  | .wait =>
    (WaitCommand.run settings .never [] cluster {}).map fun run =>
      ended run.result [] run.errors.written

/-- A file as found: its contents, or why it cannot be opened. -/
abbrev File := Except String Bytes

def runOnFile (settings : Settings) (command : OperatorCommand) (path : String) (file : File) :
    Option Outcome :=
  match file with
  | .error reason => some (failure ("failed to open " ++ path) (some reason))
  | .ok contents =>
    let loaded := CellTable.load contents .fresh
    match loaded.result with
    | .error error => some (failure error.headline error.cause?)
    | .ok _ => runCommand settings loaded.cluster command

/-- Runs an invocation, given the files that can be opened. There is no outcome when its command
never ends. -/
def runInvocation (invocation : Invocation) (openFile : String → File) : Option Outcome :=
  match invocation.settings.validate with
  | .error error => some (mistaken error)
  | .ok settings =>
    match invocation.data with
    | none => runCommand settings .fresh invocation.command
    | some path => runOnFile settings invocation.command path (openFile path)

end DataflowOps.Program
