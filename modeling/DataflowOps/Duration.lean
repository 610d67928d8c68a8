/-!
# Durations

Lengths of time in whole nanoseconds and the text in which messages show them.
-/

namespace DataflowOps

structure Duration where
  nanoseconds : Nat
  deriving DecidableEq, Repr

namespace Duration

def ofMilliseconds (milliseconds : Nat) : Duration :=
  ⟨milliseconds * 1000000⟩

def ofSeconds (seconds nanoseconds : Nat) : Duration :=
  ⟨seconds * 1000000000 + nanoseconds⟩

/-- Decimal digits of `value` on `places` places, without the zeros at the end. -/
def fractionDigits (value places : Nat) : List Char :=
  let digits := (toString value).toList
  let padded := List.replicate (places - digits.length) '0' ++ digits
  (padded.reverse.dropWhile (· = '0')).reverse

/-- A number of units with its decimal part, of which one unit has `10 ^ places`. -/
def inUnits (nanoseconds places : Nat) (unit : String) : String :=
  let scale := Nat.pow 10 places
  let whole := toString (nanoseconds / scale)
  match fractionDigits (nanoseconds % scale) places with
  | [] => whole ++ unit
  | digits => whole ++ "." ++ String.ofList digits ++ unit

/-- The text of a duration, in the largest unit of which it holds at least one; nothing is
rounded. -/
def text (duration : Duration) : String :=
  let nanoseconds := duration.nanoseconds
  if 1000000000 ≤ nanoseconds then inUnits nanoseconds 9 "s"
  else if 1000000 ≤ nanoseconds then inUnits nanoseconds 6 "ms"
  else if 1000 ≤ nanoseconds then inUnits nanoseconds 3 "µs"
  else inUnits nanoseconds 0 "ns"

end Duration

end DataflowOps
