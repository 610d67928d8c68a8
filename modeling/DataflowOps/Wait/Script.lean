import DataflowOps.Wait.Run

/-!
# Waiting on a script

A script fixes the replies to the clock reads and to the counts of a wait beforehand. Each call uses
up one reply when it starts; a call for which none is left fails.
-/

namespace DataflowOps

/-- The replies still to be given to clock reads and to counts. -/
structure BacklogScript where
  clock : List (Reply Timestamp)
  count : List (Reply Nat)

namespace BacklogScript

/-- The failure of a call for which no reply is left. -/
def usedUp : CallFailure := .unreachable "script exhausted"

def answer {Value : Type} : List (Reply Value) → Reply Value × List (Reply Value)
  | [] => (.immediate (.error usedUp), [])
  | reply :: rest => (reply, rest)

/-- The source that answers from a script; nobody else acts while the wait sleeps. -/
def source : BacklogSource BacklogScript where
  readClock script :=
    let (reply, rest) := answer script.clock
    (reply, { script with clock := rest })
  countOutstanding script :=
    let (reply, rest) := answer script.count
    (reply, { script with count := rest })
  sleepUntil _ script := ([], script)

/-- Polls after which a wait on the script has ended: each of them uses up a reply to a clock read,
and one without such a reply fails. -/
def pollLimit (script : BacklogScript) : Nat :=
  script.clock.length + 1

def wait (settings : Settings) (cancellation : Cancellation) (script : BacklogScript) :
    Option (WaitRun BacklogScript) :=
  source.wait settings cancellation script.pollLimit script

end BacklogScript

end DataflowOps
