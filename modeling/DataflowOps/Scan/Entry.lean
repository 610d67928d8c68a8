import DataflowOps.Event
import DataflowOps.OutputPipe
import DataflowOps.Column

/-!
# Scanned entries and their destinations

A scan hands out one entry per visible cell. An entry is kept in a collection, which may be limited,
or printed as a line to an output pipe. A destination that refuses an entry ends the scan without
making it a failure.
-/

namespace DataflowOps

structure Entry where
  row : Bytes
  column : Column
  value : Bytes
  deriving DecidableEq, Repr

/-- The text of an entry; malformed bytes are shown by replacement characters. -/
def Entry.text (entry : Entry) : String :=
  Utf8.lenient entry.row ++ " " ++ entry.column.text ++ "\t" ++ Utf8.lenient entry.value

/-- Whether a destination took what it was given, with the events that this caused. -/
structure Delivery where
  accepted : Bool
  events : List Event := []
  deriving DecidableEq

def Delivery.refusalMessage : String := "output sink is no longer accepting data"

/-- Entries kept in memory, up to a limit if there is one. -/
structure EntryCollection where
  limit : Option Nat := none
  entries : List Entry := []
  deriving DecidableEq

namespace EntryCollection

def isFull (collection : EntryCollection) : Bool :=
  match collection.limit with
  | none => false
  | some limit => limit ≤ collection.entries.length

def accept (entry : Entry) (collection : EntryCollection) : Delivery × EntryCollection :=
  if collection.isFull then (⟨false, []⟩, collection)
  else (⟨true, []⟩, { collection with entries := collection.entries ++ [entry] })

end EntryCollection

namespace OutputPipe

/-- The delivery of something that was written or not; a failed write is reported. -/
def delivery (written : Bool) : Delivery :=
  if written then ⟨true, []⟩ else ⟨false, [.sinkWriteFailed brokenPipe]⟩

def printLine (text : String) (pipe : OutputPipe) : Delivery × OutputPipe :=
  let (written, pipe) := pipe.writeLine text
  (delivery written, pipe)

def printEntry (entry : Entry) (pipe : OutputPipe) : Delivery × OutputPipe :=
  pipe.printLine entry.text

def finish (pipe : OutputPipe) : Delivery :=
  delivery pipe.flush

end OutputPipe

end DataflowOps
