import DataflowOps.CommandLine.Usage
import DataflowOps.Program

/-!
# Main program

Reads the command line, the environment and the data file, and hands them to the library.
-/

namespace DataflowOps.Main

def write (stream : IO.FS.Stream) (bytes : Bytes) : IO Unit := do
  stream.write bytes.toByteArray
  stream.flush

def readEnvironment : IO Environment := do
  let value (setting : Setting) : IO (Option String) :=
    match Environment.variableName? setting with
    | none => return none
    | some name => IO.getEnv name
  return ⟨← value .data, ← value .application, ← value .workers, ← value .retryTimeout⟩

def reason : IO.Error → String
  | .noFileOrDirectory _ code details => s!"{details} (os error {code})"
  | .permissionDenied _ code details => s!"{details} (os error {code})"
  | error => toString error

def readFile (path : String) : IO Program.File := do
  match ← (IO.FS.readBinFile path).toBaseIO with
  | .ok contents => return .ok contents.toList
  | .error error => return .error (reason error)

partial def sleepForever : IO Unit := do
  IO.sleep 3600000
  sleepForever

/-- Runs an invocation and ends the process as it says. -/
def runInvocation (invocation : Invocation) : IO UInt32 := do
  let file ←
    match invocation.settings.validate, invocation.data with
    | .ok _, some path => readFile path
    | _, _ => pure (.ok [])
  match Program.runInvocation invocation fun _ => file with
  | none =>
    sleepForever
    return 0
  | some outcome =>
    write (← IO.getStdout) outcome.output
    write (← IO.getStderr) outcome.errors
    return outcome.code.toUInt32

end DataflowOps.Main

def main (arguments : List String) : IO UInt32 := do
  let environment ← DataflowOps.Main.readEnvironment
  match DataflowOps.Invocation.parse environment arguments with
  | .ok invocation => DataflowOps.Main.runInvocation invocation
  | .error error =>
    let stream ← if error.code = 0 then IO.getStdout else IO.getStderr
    stream.putStr error.message
    stream.flush
    return error.code.toUInt32
