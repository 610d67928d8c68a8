import DataflowOps.Proofs.TextRoundTrip

/-!
# Which bytes are text

The strict reading accepts exactly the bytes that encode some text, and gives this text. What is
left open by the bytes read so far is described by what may follow: every byte in the range of an
open character leads to the encoding of the character that the bytes amount to.
-/

namespace DataflowOps.Utf8

/-- Whether bytes have opened a character: any byte that may come next completes the encoding of
the character that they amount to, or opens it further. -/
inductive OpenedBy : Bytes → OpenCharacter → Prop where
  | last {read : Bytes} {code : Nat} {low high : UInt8}
      (completes : ∀ byte, low ≤ byte → byte ≤ high →
        String.utf8EncodeChar (Char.ofNat (code * 64 + (byte.toNat - 0x80))) = read ++ [byte]) :
      OpenedBy read ⟨code, 0, low, high⟩
  | further {read : Bytes} {code following : Nat} {low high : UInt8}
      (opens : ∀ byte, low ≤ byte → byte ≤ high →
        OpenedBy (read ++ [byte]) ⟨code * 64 + (byte.toNat - 0x80), following, 0x80, 0xbf⟩) :
      OpenedBy read ⟨code, following + 1, low, high⟩

section Encoded

variable {code : Nat} {first second third fourth : UInt8}

theorem toNat_ofNat (valid : code < 0xd800 ∨ 0xdfff < code ∧ code < 0x110000) :
    (Char.ofNat code).val.toNat = code := by
  rw [Char.ofNat, dif_pos valid]
  rfl

theorem eq_ofNat (byte : UInt8) {number : Nat} (same : number = byte.toNat) :
    UInt8.ofNat number = byte := by
  rw [same, UInt8.ofNat_toNat]

theorem encodeChar_two (least : 0x7f < code) (most : code ≤ 0x7ff)
    (firstBits : code / 64 + 0xc0 = first.toNat) (secondBits : code % 64 + 0x80 = second.toNat) :
    String.utf8EncodeChar (Char.ofNat code) = [first, second] := by
  have value : (Char.ofNat code).val.toNat = code := toNat_ofNat (by omega)
  simp only [String.utf8EncodeChar, value]
  rw [if_neg (by omega), if_pos most, eq_ofNat first (by omega), eq_ofNat second (by omega)]

theorem encodeChar_three (least : 0x7ff < code) (most : code ≤ 0xffff)
    (noSurrogate : code < 0xd800 ∨ 0xdfff < code) (firstBits : code / 4096 + 0xe0 = first.toNat)
    (secondBits : code / 64 % 64 + 0x80 = second.toNat)
    (thirdBits : code % 64 + 0x80 = third.toNat) :
    String.utf8EncodeChar (Char.ofNat code) = [first, second, third] := by
  have value : (Char.ofNat code).val.toNat = code := toNat_ofNat (by omega)
  simp only [String.utf8EncodeChar, value]
  rw [if_neg (by omega), if_neg (by omega), if_pos most, eq_ofNat first (by omega),
    eq_ofNat second (by omega), eq_ofNat third (by omega)]

theorem encodeChar_four (least : 0xffff < code) (most : code < 0x110000)
    (firstBits : code / 262144 + 0xf0 = first.toNat)
    (secondBits : code / 4096 % 64 + 0x80 = second.toNat)
    (thirdBits : code / 64 % 64 + 0x80 = third.toNat)
    (fourthBits : code % 64 + 0x80 = fourth.toNat) :
    String.utf8EncodeChar (Char.ofNat code) = [first, second, third, fourth] := by
  have value : (Char.ofNat code).val.toNat = code := toNat_ofNat (by omega)
  simp only [String.utf8EncodeChar, value]
  rw [if_neg (by omega), if_neg (by omega), if_neg (by omega), eq_ofNat first (by omega),
    eq_ofNat second (by omega), eq_ofNat third (by omega), eq_ofNat fourth (by omega)]

end Encoded

theorem openedBy_two {first low high : UInt8} {code : Nat} (firstBits : code + 0xc0 = first.toNat)
    (least : 2 ≤ code) (most : code < 0x20) (lowest : 0x80 ≤ low.toNat)
    (highest : high.toNat ≤ 0xbf) : OpenedBy [first] ⟨code, 0, low, high⟩ := by
  refine .last fun byte notLower notHigher => ?_
  rw [UInt8.le_iff_toNat_le] at notLower notHigher
  exact encodeChar_two (by omega) (by omega) (by omega) (by omega)

theorem openedBy_three {first low high : UInt8} {code : Nat} (firstBits : code + 0xe0 = first.toNat)
    (most : code < 0x10) (lowest : 0x80 ≤ low.toNat) (highest : high.toNat ≤ 0xbf)
    (least : code = 0 → 0xa0 ≤ low.toNat) (noSurrogate : code = 0xd → high.toNat ≤ 0x9f) :
    OpenedBy [first] ⟨code, 1, low, high⟩ := by
  refine .further fun second notLower notHigher => .last fun byte notLast notFirst => ?_
  rw [UInt8.le_iff_toNat_le] at notLower notHigher
  have above : 0x80 ≤ byte.toNat := UInt8.le_iff_toNat_le.1 notLast
  have below : byte.toNat ≤ 0xbf := UInt8.le_iff_toNat_le.1 notFirst
  exact encodeChar_three (by omega) (by omega) (by omega) (by omega) (by omega) (by omega)

theorem openedBy_four {first low high : UInt8} {code : Nat} (firstBits : code + 0xf0 = first.toNat)
    (most : code < 5) (lowest : 0x80 ≤ low.toNat) (highest : high.toNat ≤ 0xbf)
    (least : code = 0 → 0x90 ≤ low.toNat) (inRange : code = 4 → high.toNat ≤ 0x8f) :
    OpenedBy [first] ⟨code, 2, low, high⟩ := by
  refine .further fun second notLower notHigher => .further fun third thirdLow thirdHigh =>
    .last fun byte notLast notFirst => ?_
  rw [UInt8.le_iff_toNat_le] at notLower notHigher
  have thirdAbove : 0x80 ≤ third.toNat := UInt8.le_iff_toNat_le.1 thirdLow
  have thirdBelow : third.toNat ≤ 0xbf := UInt8.le_iff_toNat_le.1 thirdHigh
  have above : 0x80 ≤ byte.toNat := UInt8.le_iff_toNat_le.1 notLast
  have below : byte.toNat ≤ 0xbf := UInt8.le_iff_toNat_le.1 notFirst
  exact encodeChar_four (by omega) (by omega) (by omega) (by omega) (by omega) (by omega)

theorem read_toNat (byte : UInt8) :
    LeadByte.read byte = LeadByte.read (UInt8.ofNat byte.toNat) := by
  rw [UInt8.ofNat_toNat]

/-- A byte that is a character by itself is the encoding of it. -/
theorem encodeChar_of_read {byte : UInt8} {character : Char}
    (complete : LeadByte.read byte = .complete character) :
    String.utf8EncodeChar character = [byte] := by
  rw [read_toNat, read_ofNat byte.toNat_lt] at complete
  split at complete
  · next ascii =>
    cases complete
    have value : (Char.ofNat byte.toNat).val.toNat = byte.toNat := toNat_ofNat (by omega)
    simp only [String.utf8EncodeChar, value]
    rw [if_pos (by omega), UInt8.ofNat_toNat]
  · simp only [apply_ite (· = LeadByte.complete character), reduceCtorEq, ite_self] at complete

/-- A byte that opens a character has opened it: the ranges of the byte after it leave out exactly
the codes that are encoded otherwise and the numbers that are no characters. -/
theorem openedBy_of_read {byte : UInt8} {begun : OpenCharacter}
    (opens : LeadByte.read byte = .opens begun) : OpenedBy [byte] begun := by
  rw [read_toNat, read_ofNat byte.toNat_lt] at opens
  repeat' split at opens
  -- Three of the ranges hold no byte that opens a character.
  all_goals first
    | simp only [reduceCtorEq] at opens
    | rw [LeadByte.opens.injEq] at opens; subst opens
  · exact openedBy_two (by omega) (by omega) (by omega) (by decide) (by decide)
  · exact openedBy_three (by omega) (by omega) (by decide) (by decide) (by decide) (by decide)
  · exact openedBy_three (by omega) (by omega) (by decide) (by decide) (by decide) (by decide)
  · exact openedBy_three (by omega) (by omega) (by decide) (by decide) (by omega) (by omega)
  · exact openedBy_four (by omega) (by omega) (by decide) (by decide) (by decide) (by decide)
  · exact openedBy_four (by omega) (by omega) (by decide) (by decide) (by omega) (by omega)
  · exact openedBy_four (by omega) (by omega) (by decide) (by decide) (by decide) (by decide)

/-- Bytes without malformed runs are the encoding of the characters that they are read as, also
when some have been read already. -/
theorem eq_encodeChars_of_piecesAfter {bytes : Bytes} {characters : List Char} :
    (piecesAfter none bytes = characters.map some → bytes = encodeChars characters) ∧
      ∀ read begun, OpenedBy read begun → piecesAfter (some begun) bytes = characters.map some →
        read ++ bytes = encodeChars characters := by
  induction bytes generalizing characters with
  | nil =>
      constructor
      · intro pieces
        cases characters with
        | nil => rfl
        | cons character rest => cases pieces
      · intro read begun _ pieces
        cases characters with
        | nil => cases pieces
        | cons character rest => cases pieces
  | cons byte rest ih =>
      constructor
      · intro pieces
        cases lead : LeadByte.read byte with
        | complete character =>
            simp only [piecesAfter, lead] at pieces
            cases characters with
            | nil => cases pieces
            | cons other others =>
                rw [List.map_cons, List.cons.injEq, Option.some.injEq] at pieces
                rw [ih.1 pieces.2, ← pieces.1, ← List.singleton_append,
                  ← encodeChar_of_read lead]
                rfl
        | opens begun =>
            simp only [piecesAfter, lead] at pieces
            exact ih.2 [byte] begun (openedBy_of_read lead) pieces
        | malformed =>
            simp only [piecesAfter, lead] at pieces
            cases characters <;> cases pieces
      · intro read begun opened pieces
        by_cases within : begun.low ≤ byte ∧ byte ≤ begun.high
        · simp only [piecesAfter, within, and_self, if_true] at pieces
          cases opened with
          | last completes =>
              cases characters with
              | nil => cases pieces
              | cons other others =>
                  rw [List.map_cons, List.cons.injEq, Option.some.injEq] at pieces
                  have encoded := completes byte within.1 within.2
                  rw [ih.1 pieces.2, List.append_cons, ← encoded, pieces.1]
                  rfl
          | further opens =>
              rw [List.append_cons]
              exact ih.2 (read ++ [byte]) _ (opens byte within.1 within.2) pieces
        · simp only [piecesAfter, within, if_false] at pieces
          cases characters with
          | nil => split at pieces <;> cases pieces
          | cons other others => split at pieces <;> cases pieces

/-- Bytes are decoded exactly when they are encoded text, and then to this text. -/
theorem decode?_eq_some_iff {bytes : Bytes} {characters : List Char} :
    decode? bytes = some characters ↔ bytes = encodeChars characters := by
  rw [decode?, mapM_id_eq_some_iff]
  constructor
  · exact eq_encodeChars_of_piecesAfter.1
  · rintro rfl
    exact pieces_encodeChars characters

end DataflowOps.Utf8
