import DataflowOps.Order

/-!
# Byte strings

Rows, column parts and values are byte strings, compared lexicographically by unsigned byte.
Two keys derived from a byte string bound the scans: the immediate successor of a row, and the
least key above every key that begins with a given stem.
-/

namespace DataflowOps

abbrev Bytes := List UInt8

namespace Bytes

instance : StrictTotalOrder UInt8 where
  irrefl _ before := UInt8.lt_irrefl _ before
  trans := UInt8.lt_trans
  connected notBefore notAfter :=
    UInt8.le_antisymm (UInt8.not_lt.1 notAfter) (UInt8.not_lt.1 notBefore)

instance : StrictTotalOrder Bytes where
  irrefl key := List.lex_irrefl (r := (· < ·)) (fun byte => UInt8.lt_irrefl byte) key
  trans := List.lex_trans (r := (· < ·)) UInt8.lt_trans
  connected {left right} notBefore notAfter := by
    induction left generalizing right with
    | nil =>
      cases right with
      | nil => rfl
      | cons byte rest => exact absurd (List.nil_lt_cons byte rest) notBefore
    | cons leftByte leftRest induction =>
      cases right with
      | nil => exact absurd (List.nil_lt_cons leftByte leftRest) notAfter
      | cons rightByte rightRest =>
        rw [List.cons_lt_cons_iff] at notBefore notAfter
        have byteEqual : leftByte = rightByte :=
          StrictTotalOrder.connected (fun before => notBefore (.inl before))
            (fun before => notAfter (.inl before))
        subst byteEqual
        rw [induction (fun before => notBefore (.inr ⟨rfl, before⟩))
          (fun before => notAfter (.inr ⟨rfl, before⟩))]

/-- Smallest byte string greater than `row`. -/
def successor (row : Bytes) : Bytes :=
  row ++ [0]

/-- Smallest byte string greater than every byte string that begins with `stem`: the last byte below
`0xff` is incremented and what follows it is dropped. There is none when every byte is `0xff`. -/
def leastAboveExtensions? : (stem : Bytes) → Option Bytes
  | [] => none
  | byte :: rest =>
    match leastAboveExtensions? rest with
    | some bound => some (byte :: bound)
    | none => if byte = 0xff then none else some [byte + 1]

/-- The characters that show a byte between quotes. Printable bytes stand for themselves, unless
they would end the text or begin an escape. -/
def escape (byte : UInt8) : List Char :=
  match byte with
  | 0x0a => ['\\', 'n']
  | 0x0d => ['\\', 'r']
  | 0x09 => ['\\', 't']
  | 0x5c => ['\\', '\\']
  | 0x22 => ['\\', '"']
  | 0x00 => ['\\', '0']
  | _ =>
    if 0x20 ≤ byte ∧ byte < 0x7f then [Char.ofUInt8 byte]
    else ['\\', 'x', Nat.digitChar (byte.toNat / 16), Nat.digitChar (byte.toNat % 16)]

/-- The text that shows a byte string. -/
def text (key : Bytes) : String :=
  "b\"" ++ String.ofList (key.flatMap escape) ++ "\""

end Bytes

end DataflowOps
