/-!
# Written numbers

A number is written as decimal digits, of which there is at least one, after an optional plus sign;
leading zeros do not matter. It must be less than 2⁶⁴.
-/

namespace DataflowOps.Number

def digits : List Char → List Char
  | '+' :: rest => rest
  | characters => characters

def value (digits : List Char) : Nat :=
  digits.foldl (fun total digit => total * 10 + (digit.toNat - '0'.toNat)) 0

/-- The number written by a text. -/
def parse? (text : String) : Option Nat :=
  let written := digits text.toList
  if written ≠ [] ∧ written.all Char.isDigit ∧ value written < UInt64.size then some (value written)
  else none

end DataflowOps.Number
