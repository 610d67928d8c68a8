import DataflowOps.Bytes

/-!
# UTF-8

Encoding of text and the two readings of a byte string as text. A byte string is cut into pieces,
each a character or a malformed run; a run ends before the first byte that cannot continue the
character begun, so that it is a maximal part of a well-formed character or a single byte. The
strict reading refuses malformed runs, the lenient one shows each as one replacement character.
-/

namespace DataflowOps.Utf8

def encodeChars (characters : List Char) : Bytes :=
  characters.flatMap String.utf8EncodeChar

def encode (text : String) : Bytes :=
  encodeChars text.toList

/-- A character of which some bytes have been read: the value of the bits so far, how many bytes
follow the next one, and the range in which the next one must lie. -/
structure OpenCharacter where
  code : Nat
  following : Nat
  low : UInt8
  high : UInt8

inductive LeadByte where
  | complete (character : Char)
  | opens (character : OpenCharacter)
  | malformed

/-- Reading of a first byte. The ranges of the second byte exclude overlong forms, surrogates and
values past the last code point. -/
def LeadByte.read (byte : UInt8) : LeadByte :=
  if byte < 0x80 then .complete (Char.ofNat byte.toNat)
  else if byte < 0xc2 then .malformed
  else if byte < 0xe0 then .opens ⟨byte.toNat - 0xc0, 0, 0x80, 0xbf⟩
  else if byte = 0xe0 then .opens ⟨0, 1, 0xa0, 0xbf⟩
  else if byte = 0xed then .opens ⟨0xd, 1, 0x80, 0x9f⟩
  else if byte < 0xf0 then .opens ⟨byte.toNat - 0xe0, 1, 0x80, 0xbf⟩
  else if byte = 0xf0 then .opens ⟨0, 2, 0x90, 0xbf⟩
  else if byte < 0xf4 then .opens ⟨byte.toNat - 0xf0, 2, 0x80, 0xbf⟩
  else if byte = 0xf4 then .opens ⟨4, 2, 0x80, 0x8f⟩
  else .malformed

/-- Characters and malformed runs (`none`) of a byte string, given the character left open by the
bytes before it. -/
def piecesAfter : Option OpenCharacter → Bytes → List (Option Char)
  | none, [] => []
  | some _, [] => [none]
  | none, byte :: rest =>
    match LeadByte.read byte with
    | .complete character => some character :: piecesAfter none rest
    | .opens begun => piecesAfter (some begun) rest
    | .malformed => none :: piecesAfter none rest
  | some begun, byte :: rest =>
    if begun.low ≤ byte ∧ byte ≤ begun.high then
      let code := begun.code * 64 + (byte.toNat - 0x80)
      match begun.following with
      | 0 => some (Char.ofNat code) :: piecesAfter none rest
      | following + 1 => piecesAfter (some ⟨code, following, 0x80, 0xbf⟩) rest
    else
      match LeadByte.read byte with
      | .complete character => none :: some character :: piecesAfter none rest
      | .opens next => none :: piecesAfter (some next) rest
      | .malformed => none :: none :: piecesAfter none rest

def pieces (bytes : Bytes) : List (Option Char) :=
  piecesAfter none bytes

def decode? (bytes : Bytes) : Option (List Char) :=
  (pieces bytes).mapM id

def replacement : Char :=
  Char.ofNat 0xfffd

/-- The text of a byte string in which each malformed run is one replacement character. -/
def lenient (bytes : Bytes) : String :=
  String.ofList ((pieces bytes).map (·.getD replacement))

end DataflowOps.Utf8
