import DataflowOps.Bytes

/-!
# Lines

A byte string is cut at its line feeds. A carriage return right before a line feed belongs to the
line end; anywhere else it belongs to the line. What follows the last line feed is a line unless it
is empty.
-/

namespace DataflowOps.Lines

def lineFeed : UInt8 := 0x0a

def carriageReturn : UInt8 := 0x0d

def extendFirst (byte : UInt8) : List Bytes → List Bytes
  | [] => [[byte]]
  | line :: rest => (byte :: line) :: rest

/-- The lines of a byte string, without their ends. -/
def split : Bytes → List Bytes
  | [] => []
  | byte :: rest =>
    if byte = lineFeed then [] :: split rest
    else if byte = carriageReturn ∧ rest.head? = some lineFeed then split rest
    else extendFirst byte (split rest)

end DataflowOps.Lines
