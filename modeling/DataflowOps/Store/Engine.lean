import DataflowOps.CallFailure
import DataflowOps.OrderedMap
import DataflowOps.Store.Address

/-!
# The engine in memory

The engine holds a logical clock, every version of every cell, and the cells that await processing.
Commits, clock reads and opened snapshots take one tick each; a deleted cell keeps a version without
value, so that older versions stay hidden below it. An engine that is offline answers no call and
changes nothing.
-/

namespace DataflowOps

inductive Change where
  | set (cell : CellAddress) (value : Bytes)
  | delete (cell : CellAddress)
  | notify (cell : CellAddress)
  | acknowledge (cell : CellAddress)
  deriving DecidableEq, Repr

/-- Changes applied together at one timestamp, in order. -/
abbrev Batch := List Change

/-- The state of an engine. A version without value marks a deletion; a notification carries the
timestamp of the commit that raised it. -/
structure Engine where
  clock : Timestamp
  available : Bool
  versions : OrderedMap VersionAddress (Option Bytes)
  notifications : OrderedMap CellAddress Timestamp
  deriving DecidableEq

namespace Engine

def fresh : Engine where
  clock := .zero
  available := true
  versions := .empty
  notifications := .empty

/-- The failure of every call to an engine that is offline. -/
def offline : CallFailure := .unreachable "memory engine is offline"

def tick (engine : Engine) : Engine :=
  { engine with clock := engine.clock.next }

def applyChange (timestamp : Timestamp) (engine : Engine) : Change → Engine
  | .set cell value =>
    { engine with versions := engine.versions.insert ⟨cell, timestamp⟩ (some value) }
  | .delete cell => { engine with versions := engine.versions.insert ⟨cell, timestamp⟩ none }
  | .notify cell => { engine with notifications := engine.notifications.insert cell timestamp }
  | .acknowledge cell => { engine with notifications := engine.notifications.erase cell }

def commit (batch : Batch) (engine : Engine) : Except CallFailure Timestamp × Engine :=
  if engine.available then
    let ticked := engine.tick
    (.ok ticked.clock, batch.foldl (applyChange ticked.clock) ticked)
  else (.error offline, engine)

def readClock (engine : Engine) : Except CallFailure Timestamp × Engine :=
  if engine.available then (.ok engine.tick.clock, engine.tick) else (.error offline, engine)

def countNotifications (engine : Engine) : Except CallFailure Nat :=
  if engine.available then .ok engine.notifications.size else .error offline

end Engine

end DataflowOps
