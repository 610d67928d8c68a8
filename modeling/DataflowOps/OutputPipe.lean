import DataflowOps.Text.Utf8

/-!
# Output pipes

A pipe takes text until its reader has gone. The room that is left, if it is limited at all, is used
up byte by byte; a text that does not fit is cut where the room ends, and its write fails.
-/

namespace DataflowOps

/-- An output with the bytes written so far and the number of bytes it still takes. -/
structure OutputPipe where
  room : Option Nat := none
  flushFails : Bool := false
  written : Bytes := []
  deriving DecidableEq, Repr

namespace OutputPipe

/-- The text of every failure of a pipe. -/
def brokenPipe : String := "broken pipe"

/-- Writes bytes and tells whether all of them were taken. -/
def write (bytes : Bytes) (pipe : OutputPipe) : Bool × OutputPipe :=
  match pipe.room with
  | none => (true, { pipe with written := pipe.written ++ bytes })
  | some room =>
    (bytes.length ≤ room,
      { pipe with room := some (room - bytes.length), written := pipe.written ++ bytes.take room })

def writeLine (text : String) (pipe : OutputPipe) : Bool × OutputPipe :=
  pipe.write (Utf8.encode (text ++ "\n"))

/-- Tells whether everything written has reached the reader. -/
def flush (pipe : OutputPipe) : Bool :=
  !pipe.flushFails

end OutputPipe

end DataflowOps
