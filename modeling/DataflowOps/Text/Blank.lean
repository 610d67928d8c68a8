/-!
# Blank characters

The characters with the Unicode property `White_Space`, twenty-five code points in ten ranges. A
line of them alone carries no data.
-/

namespace DataflowOps.Blank

/-- First and last code point of each range of blank characters. -/
def ranges : List (Nat × Nat) :=
  [(0x09, 0x0d), (0x20, 0x20), (0x85, 0x85), (0xa0, 0xa0), (0x1680, 0x1680), (0x2000, 0x200a),
    (0x2028, 0x2029), (0x202f, 0x202f), (0x205f, 0x205f), (0x3000, 0x3000)]

/-- Whether a character has the property `White_Space`. -/
def isBlank (character : Char) : Bool :=
  ranges.any fun range => range.1 ≤ character.toNat && character.toNat ≤ range.2

end DataflowOps.Blank
