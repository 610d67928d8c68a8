/-!
# Pauses

A pause lasts as long as it is asked for, in whole milliseconds, up to thirty years. This is where
the model ends: a longer pause is given the thirty years that the timer was observed to take for it,
which nothing promises, and results about the time that something takes are stated for pauses up to
`longest`. A limit on somebody else's answer is no pause and is kept in full.
-/

namespace DataflowOps.Pause

/-- The longest pause in milliseconds, thirty years of 365 days. -/
def longest : Nat := 30 * 365 * 24 * 60 * 60 * 1000

/-- The milliseconds that pass in a pause meant to last for `milliseconds`. Past `longest` this is
only what was observed. -/
def elapsed (milliseconds : Nat) : Nat :=
  min milliseconds longest

theorem elapsed_of_le_longest {milliseconds : Nat} (short : milliseconds ≤ longest) :
    elapsed milliseconds = milliseconds :=
  Nat.min_eq_left short

end DataflowOps.Pause
