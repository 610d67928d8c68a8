import DataflowOps.Text.Lines
import DataflowOps.Text.Utf8

/-!
# Reading back what was written

Text that was encoded is decoded to itself, and lines that were written one after the other are cut
where they were joined; there is no other way to cut them. The bytes below `0x80` of an encoded text
are its characters below `0x80`, so that the ends of its lines can be looked for among the bytes.
-/

namespace DataflowOps

namespace Utf8

/-- What a first byte opens, in terms of its number. -/
theorem read_ofNat {number : Nat} (isByte : number < 0x100) :
    LeadByte.read (UInt8.ofNat number) =
      if number < 0x80 then .complete (Char.ofNat number)
      else if number < 0xc2 then .malformed
      else if number < 0xe0 then .opens ⟨number - 0xc0, 0, 0x80, 0xbf⟩
      else if number = 0xe0 then .opens ⟨0, 1, 0xa0, 0xbf⟩
      else if number = 0xed then .opens ⟨0xd, 1, 0x80, 0x9f⟩
      else if number < 0xf0 then .opens ⟨number - 0xe0, 1, 0x80, 0xbf⟩
      else if number = 0xf0 then .opens ⟨0, 2, 0x90, 0xbf⟩
      else if number < 0xf4 then .opens ⟨number - 0xf0, 2, 0x80, 0xbf⟩
      else if number = 0xf4 then .opens ⟨4, 2, 0x80, 0x8f⟩
      else .malformed := by
  have size : (UInt8.ofNat number).toNat = number := UInt8.toNat_ofNat_of_lt' isByte
  simp only [LeadByte.read, UInt8.lt_iff_toNat_lt, ← UInt8.toNat_inj, size]
  rfl

theorem piecesAfter_last {code number total : Nat} {low high : UInt8} (lowest : low.toNat ≤ number)
    (highest : number ≤ high.toNat) (sum : code * 64 + (number - 0x80) = total) (rest : Bytes) :
    piecesAfter (some ⟨code, 0, low, high⟩) (UInt8.ofNat number :: rest) =
      some (Char.ofNat total) :: piecesAfter none rest := by
  have bounded := high.toNat_lt
  have size : (UInt8.ofNat number).toNat = number :=
    UInt8.toNat_ofNat_of_lt' (Nat.lt_of_le_of_lt highest bounded)
  have within : low ≤ UInt8.ofNat number ∧ UInt8.ofNat number ≤ high := by
    rw [UInt8.le_iff_toNat_le, UInt8.le_iff_toNat_le, size]
    exact ⟨lowest, highest⟩
  simp only [piecesAfter, within, and_self, if_true, size, sum]

theorem piecesAfter_further {code following number : Nat} {low high : UInt8}
    (lowest : low.toNat ≤ number) (highest : number ≤ high.toNat) (rest : Bytes) :
    piecesAfter (some ⟨code, following + 1, low, high⟩) (UInt8.ofNat number :: rest) =
      piecesAfter (some ⟨code * 64 + (number - 0x80), following, 0x80, 0xbf⟩) rest := by
  have bounded := high.toNat_lt
  have size : (UInt8.ofNat number).toNat = number :=
    UInt8.toNat_ofNat_of_lt' (Nat.lt_of_le_of_lt highest bounded)
  have within : low ≤ UInt8.ofNat number ∧ UInt8.ofNat number ≤ high := by
    rw [UInt8.le_iff_toNat_le, UInt8.le_iff_toNat_le, size]
    exact ⟨lowest, highest⟩
  simp only [piecesAfter, within, and_self, if_true, size]

theorem piecesAfter_opens {byte : UInt8} {begun : OpenCharacter}
    (opened : LeadByte.read byte = .opens begun) (rest : Bytes) :
    piecesAfter none (byte :: rest) = piecesAfter (some begun) rest := by
  simp only [piecesAfter, opened]

theorem piecesAfter_two {code : Nat} (least : 0x7f < code) (most : code ≤ 0x7ff) (rest : Bytes) :
    piecesAfter none (UInt8.ofNat (code / 64 % 32 + 192) :: UInt8.ofNat (code % 64 + 128) :: rest) =
      some (Char.ofNat code) :: piecesAfter none rest := by
  have opened := read_ofNat (show code / 64 % 32 + 192 < 0x100 by omega)
  rw [if_neg (by omega), if_neg (by omega), if_pos (by omega)] at opened
  rw [piecesAfter_opens opened]
  exact piecesAfter_last (by simp) (by simp; omega) (by omega) rest

theorem piecesAfter_three {code : Nat} (least : 0x7ff < code) (most : code ≤ 0xffff)
    (noSurrogate : code < 0xd800 ∨ 0xdfff < code) (rest : Bytes) :
    piecesAfter none (UInt8.ofNat (code / 4096 % 16 + 224) :: UInt8.ofNat (code / 64 % 64 + 128) ::
        UInt8.ofNat (code % 64 + 128) :: rest) =
      some (Char.ofNat code) :: piecesAfter none rest := by
  have opened := read_ofNat (show code / 4096 % 16 + 224 < 0x100 by omega)
  rw [if_neg (by omega), if_neg (by omega), if_neg (by omega)] at opened
  -- The second byte has a smaller range after the first lead byte and after the one of surrogates.
  by_cases first : code / 4096 % 16 + 224 = 0xe0
  · rw [if_pos first] at opened
    rw [piecesAfter_opens opened, piecesAfter_further (by simp; omega) (by simp; omega)]
    exact piecesAfter_last (by simp) (by simp; omega) (by omega) rest
  · rw [if_neg first] at opened
    by_cases surrogates : code / 4096 % 16 + 224 = 0xed
    · rw [if_pos surrogates] at opened
      rw [piecesAfter_opens opened, piecesAfter_further (by simp) (by simp; omega)]
      exact piecesAfter_last (by simp) (by simp; omega) (by omega) rest
    · rw [if_neg surrogates, if_pos (by omega)] at opened
      rw [piecesAfter_opens opened, piecesAfter_further (by simp) (by simp; omega)]
      exact piecesAfter_last (by simp) (by simp; omega) (by omega) rest

theorem piecesAfter_four {code : Nat} (least : 0xffff < code) (most : code < 0x110000)
    (rest : Bytes) :
    piecesAfter none (UInt8.ofNat (code / 262144 % 8 + 240) ::
        UInt8.ofNat (code / 4096 % 64 + 128) :: UInt8.ofNat (code / 64 % 64 + 128) ::
        UInt8.ofNat (code % 64 + 128) :: rest) =
      some (Char.ofNat code) :: piecesAfter none rest := by
  have opened := read_ofNat (show code / 262144 % 8 + 240 < 0x100 by omega)
  rw [if_neg (by omega), if_neg (by omega), if_neg (by omega), if_neg (by omega),
    if_neg (by omega), if_neg (by omega)] at opened
  by_cases first : code / 262144 % 8 + 240 = 0xf0
  · rw [if_pos first] at opened
    rw [piecesAfter_opens opened, piecesAfter_further (by simp; omega) (by simp; omega),
      piecesAfter_further (by simp) (by simp; omega)]
    exact piecesAfter_last (by simp) (by simp; omega) (by omega) rest
  · rw [if_neg first] at opened
    by_cases last : code / 262144 % 8 + 240 < 0xf4
    · rw [if_pos last] at opened
      rw [piecesAfter_opens opened, piecesAfter_further (by simp) (by simp; omega),
        piecesAfter_further (by simp) (by simp; omega)]
      exact piecesAfter_last (by simp) (by simp; omega) (by omega) rest
    · rw [if_neg last, if_pos (by omega)] at opened
      rw [piecesAfter_opens opened, piecesAfter_further (by simp) (by simp; omega),
        piecesAfter_further (by simp) (by simp; omega)]
      exact piecesAfter_last (by simp) (by simp; omega) (by omega) rest

/-- The bytes of a character are read as this character. -/
theorem piecesAfter_encodeChar (character : Char) (rest : Bytes) :
    piecesAfter none (String.utf8EncodeChar character ++ rest) =
      some character :: piecesAfter none rest := by
  have whole : Char.ofNat character.val.toNat = character := Char.ofNat_toNat character
  have valid : character.val.toNat < 0xd800 ∨
      0xdfff < character.val.toNat ∧ character.val.toNat < 0x110000 := character.valid
  simp only [String.utf8EncodeChar]
  by_cases one : character.val.toNat ≤ 0x7f
  · have read := read_ofNat (show character.val.toNat < 0x100 by omega)
    rw [if_pos (by omega)] at read
    rw [if_pos one, List.singleton_append]
    simp only [piecesAfter, read, whole]
  · rw [if_neg one]
    by_cases two : character.val.toNat ≤ 0x7ff
    · rw [if_pos two]
      exact (piecesAfter_two (by omega) two rest).trans (by rw [whole])
    · rw [if_neg two]
      by_cases three : character.val.toNat ≤ 0xffff
      · rw [if_pos three]
        exact (piecesAfter_three (by omega) three (by omega) rest).trans (by rw [whole])
      · rw [if_neg three]
        exact (piecesAfter_four (by omega) (by omega) rest).trans (by rw [whole])

theorem pieces_encodeChars (characters : List Char) :
    pieces (encodeChars characters) = characters.map some := by
  induction characters with
  | nil => rfl
  | cons character rest ih =>
      simp only [pieces, encodeChars, List.flatMap_cons, List.map_cons] at ih ⊢
      rw [piecesAfter_encodeChar, ih]

theorem mapM_id_eq_some_iff {pieces : List (Option Char)} {characters : List Char} :
    pieces.mapM id = some characters ↔ pieces = characters.map some := by
  induction pieces generalizing characters with
  | nil => cases characters <;> simp
  | cons piece rest ih =>
      cases piece with
      | none => cases characters <;> simp
      | some character =>
          have decoded : (some character :: rest).mapM id =
              (rest.mapM id).map (character :: ·) := by
            rw [List.mapM_cons, Option.map_eq_bind]
            rfl
          rw [decoded, Option.map_eq_some_iff]
          constructor
          · rintro ⟨others, read, rfl⟩
            rw [ih.1 read, List.map_cons]
          · intro same
            cases characters with
            | nil => cases same
            | cons other others =>
                rw [List.map_cons, List.cons.injEq, Option.some.injEq] at same
                exact ⟨others, ih.2 same.2, by rw [same.1]⟩

/-- Encoded text is decoded to itself. -/
theorem decode?_encodeChars (characters : List Char) :
    decode? (encodeChars characters) = some characters := by
  rw [decode?, mapM_id_eq_some_iff, pieces_encodeChars]

theorem encodeChars_append (earlier later : List Char) :
    encodeChars (earlier ++ later) = encodeChars earlier ++ encodeChars later :=
  List.flatMap_append

theorem encode_append (earlier later : String) :
    encode (earlier ++ later) = encode earlier ++ encode later := by
  rw [encode, String.toList_append, encodeChars_append]
  rfl

theorem encodeChars_singleton (character : Char) :
    encodeChars [character] = String.utf8EncodeChar character :=
  List.flatMap_singleton _ _

/-- A byte below `0x80` is a character of its own. -/
theorem toNat_of_mem_encodeChar {character : Char} {byte : UInt8}
    (member : byte ∈ String.utf8EncodeChar character) (ascii : byte.toNat < 0x80) :
    character.toNat = byte.toNat := by
  have tooHigh {number : Nat} (high : 0x80 ≤ number) (isByte : number < 0x100)
      (same : byte = UInt8.ofNat number) : False := by
    have size : (UInt8.ofNat number).toNat = number := UInt8.toNat_ofNat_of_lt' isByte
    rw [same, size] at ascii
    omega
  simp only [String.utf8EncodeChar] at member
  split at member
  · next one =>
    rw [List.mem_singleton.1 member]
    exact (UInt8.toNat_ofNat_of_lt' (Nat.lt_of_le_of_lt one (by decide))).symm
  · exfalso
    split at member
    · simp only [List.mem_cons, List.not_mem_nil, or_false] at member
      rcases member with same | same <;> exact tooHigh (by omega) (by omega) same
    · split at member
      · simp only [List.mem_cons, List.not_mem_nil, or_false] at member
        rcases member with same | same | same <;> exact tooHigh (by omega) (by omega) same
      · simp only [List.mem_cons, List.not_mem_nil, or_false] at member
        rcases member with same | same | same | same <;> exact tooHigh (by omega) (by omega) same

theorem mem_of_mem_encodeChars {characters : List Char} {byte : UInt8}
    (member : byte ∈ encodeChars characters) (ascii : byte.toNat < 0x80) :
    Char.ofNat byte.toNat ∈ characters := by
  rcases List.mem_flatMap.1 member with ⟨character, present, inside⟩
  rw [← toNat_of_mem_encodeChar inside ascii, Char.ofNat_toNat]
  exact present

theorem getLast?_of_encodeChars {characters : List Char} {byte : UInt8}
    (last : (encodeChars characters).getLast? = some byte) (ascii : byte.toNat < 0x80) :
    characters.getLast? = some (Char.ofNat byte.toNat) := by
  rcases List.eq_nil_or_concat characters with rfl | ⟨earlier, character, rfl⟩
  · cases last
  · have inside : byte ∈ String.utf8EncodeChar character := by
      have someByte : String.utf8EncodeChar character ≠ [] := String.utf8EncodeChar_ne_nil
      rw [List.concat_eq_append, encodeChars_append, encodeChars_singleton, List.getLast?_append,
        List.getLast?_eq_some_getLast someByte, Option.some_or, Option.some.injEq] at last
      exact last ▸ List.getLast_mem someByte
    rw [List.concat_eq_append, List.getLast?_concat, ← toNat_of_mem_encodeChar inside ascii,
      Char.ofNat_toNat]

end Utf8

namespace Lines

/-- A line without the carriage return that it may end with. -/
def dropReturn (line : Bytes) : Bytes :=
  if line.getLast? = some carriageReturn then line.dropLast else line

variable {line : Bytes}

theorem dropReturn_cons (byte : UInt8) (line : Bytes) :
    dropReturn (byte :: line) =
      if line = [] then if byte = carriageReturn then [] else [byte]
      else byte :: dropReturn line := by
  cases line with
  | nil => simp [dropReturn]
  | cons next rest =>
      simp only [dropReturn, List.getLast?_cons_cons, reduceCtorEq, if_false]
      split <;> rfl

/-- How a byte string is cut into lines. Every line but the last ends with a line feed, before which
there may be a carriage return; the last line is what is left, unless nothing is. -/
inductive Cut : Bytes → List Bytes → Prop where
  | none : Cut [] []
  | unended {line : Bytes} (someByte : line ≠ []) (noFeed : lineFeed ∉ line) : Cut line [line]
  | ended {line rest : Bytes} {lines : List Bytes} (noFeed : lineFeed ∉ line)
      (cut : Cut rest lines) : Cut (line ++ lineFeed :: rest) (dropReturn line :: lines)

/-- A line is cut at its end. -/
theorem split_append (noFeed : lineFeed ∉ line) (rest : Bytes) :
    split (line ++ lineFeed :: rest) = dropReturn line :: split rest := by
  induction line with
  | nil => simp [split, dropReturn]
  | cons byte tail ih =>
      rw [List.mem_cons, not_or] at noFeed
      rcases noFeed with ⟨notFeed, noFeed⟩
      rw [dropReturn_cons, List.cons_append, split, if_neg (Ne.symm notFeed), ih noFeed]
      cases tail with
      | nil =>
          by_cases isReturn : byte = carriageReturn
          · simp [isReturn, dropReturn]
          · simp [isReturn, dropReturn, extendFirst]
      | cons next tail =>
          have notEnd : next ≠ lineFeed := fun same => noFeed (same ▸ List.mem_cons_self)
          simp [notEnd, extendFirst]

theorem split_of_not_mem (noFeed : lineFeed ∉ line) :
    split line = if line = [] then [] else [line] := by
  induction line with
  | nil => rfl
  | cons byte tail ih =>
      rw [List.mem_cons, not_or] at noFeed
      rcases noFeed with ⟨notFeed, noFeed⟩
      rw [split, if_neg (Ne.symm notFeed), ih noFeed]
      cases tail with
      | nil => simp [extendFirst]
      | cons next tail =>
          have notEnd : next ≠ lineFeed := fun same => noFeed (same ▸ List.mem_cons_self)
          simp [notEnd, extendFirst]

theorem Cut.eq_split {bytes : Bytes} {lines : List Bytes} (cut : Cut bytes lines) :
    lines = split bytes := by
  induction cut with
  | none => rfl
  | unended someByte noFeed => rw [split_of_not_mem noFeed, if_neg someByte]
  | ended noFeed _ ih => rw [split_append noFeed, ← ih]

theorem cut_split (bytes : Bytes) : Cut bytes (split bytes) := by
  by_cases feed : lineFeed ∈ bytes
  · rcases List.eq_append_cons_of_mem feed with ⟨line, rest, written, noFeed⟩
    have shorter : rest.length < bytes.length := by
      simp only [written, List.length_append, List.length_cons]
      omega
    rw [written, split_append noFeed]
    exact .ended noFeed (cut_split rest)
  · rw [split_of_not_mem feed]
    split
    · next empty => exact empty ▸ .none
    · next someByte => exact .unended someByte feed
termination_by bytes.length

/-- A byte string is cut in exactly one way. -/
theorem cut_iff {bytes : Bytes} {lines : List Bytes} : Cut bytes lines ↔ lines = split bytes := by
  constructor
  · exact Cut.eq_split
  · rintro rfl
    exact cut_split bytes

theorem lineFeed_notMem_encode {text : String} (oneLine : '\n' ∉ text.toList) :
    lineFeed ∉ Utf8.encode text :=
  fun member => oneLine (Utf8.mem_of_mem_encodeChars member (by decide))

theorem dropReturn_append (line : Bytes) : dropReturn (line ++ [carriageReturn]) = line := by
  simp [dropReturn]

theorem dropReturn_encode {text : String} (noReturn : text.toList.getLast? ≠ some '\r') :
    dropReturn (Utf8.encode text) = Utf8.encode text := by
  apply if_neg
  intro last
  exact noReturn (Utf8.getLast?_of_encodeChars last (by decide))

theorem split_encode_feed {text : String} (oneLine : '\n' ∉ text.toList) (rest : Bytes) :
    split (Utf8.encode (text ++ "\n") ++ rest) = dropReturn (Utf8.encode text) :: split rest := by
  have feed : Utf8.encode "\n" = [lineFeed] := rfl
  rw [Utf8.encode_append, feed, List.append_assoc, List.singleton_append,
    split_append (lineFeed_notMem_encode oneLine)]

theorem split_encode_returnFeed {text : String} (oneLine : '\n' ∉ text.toList) (rest : Bytes) :
    split (Utf8.encode (text ++ "\r\n") ++ rest) = Utf8.encode text :: split rest := by
  have feed : Utf8.encode "\r\n" = [carriageReturn, lineFeed] := rfl
  have noFeed : lineFeed ∉ Utf8.encode text ++ [carriageReturn] := by
    rw [List.mem_append, not_or]
    exact ⟨lineFeed_notMem_encode oneLine, by decide⟩
  rw [Utf8.encode_append, feed, List.append_cons, List.append_assoc, List.singleton_append,
    split_append noFeed, dropReturn_append]

end Lines

end DataflowOps
