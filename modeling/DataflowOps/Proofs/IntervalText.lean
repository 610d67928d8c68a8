import DataflowOps.RowInterval

/-!
# Texts of intervals

An interval of rows is shown by a text in the log. Every escape is read back as its byte, and a key
ends at the first quote that stands for itself, so that the text tells which interval is meant.
-/

namespace DataflowOps

namespace Bytes

/-- The value of a digit in base sixteen. -/
def digitValue (digit : Char) : Nat :=
  if digit.isDigit then digit.toNat - '0'.toNat else digit.toNat - 'a'.toNat + 10

theorem digitValue_digitChar {digit : Nat} (small : digit < 16) :
    digitValue (Nat.digitChar digit) = digit := by
  have all : ∀ digit < 16, digitValue (Nat.digitChar digit) = digit := by decide
  exact all digit small

/-- Reads the byte that is shown at the front of a text, with what follows it. -/
def readByte : List Char → Option (UInt8 × List Char)
  | '\\' :: 'n' :: rest => some (0x0a, rest)
  | '\\' :: 'r' :: rest => some (0x0d, rest)
  | '\\' :: 't' :: rest => some (0x09, rest)
  | '\\' :: '\\' :: rest => some (0x5c, rest)
  | '\\' :: '"' :: rest => some (0x22, rest)
  | '\\' :: '0' :: rest => some (0x00, rest)
  | '\\' :: 'x' :: high :: low :: rest =>
    some (UInt8.ofNat (digitValue high * 16 + digitValue low), rest)
  | character :: rest => some (UInt8.ofNat character.toNat, rest)
  | [] => none

theorem readByte_of_ne {character : Char} (plain : character ≠ '\\') (rest : List Char) :
    readByte (character :: rest) = some (UInt8.ofNat character.toNat, rest) := by
  rw [readByte]
  all_goals
    intros
    contradiction

theorem toNat_ofUInt8 (byte : UInt8) : (Char.ofUInt8 byte).toNat = byte.toNat :=
  UInt8.toNat_toUInt32 byte

theorem readByte_escape (byte : UInt8) (rest : List Char) :
    readByte (escape byte ++ rest) = some (byte, rest) := by
  unfold escape
  split
  · rfl
  · rfl
  · rfl
  · rfl
  · rfl
  · rfl
  · next notBackslash _ _ =>
    split
    · have plain : Char.ofUInt8 byte ≠ '\\' := by
        intro same
        apply notBackslash
        rw [← UInt8.toNat_inj, ← toNat_ofUInt8, same]
        rfl
      rw [List.singleton_append, readByte_of_ne plain, toNat_ofUInt8, UInt8.ofNat_toNat]
    · have bounded := byte.toNat_lt
      have read : readByte ('\\' :: 'x' :: Nat.digitChar (byte.toNat / 16) ::
          Nat.digitChar (byte.toNat % 16) :: rest) = some (UInt8.ofNat
            (digitValue (Nat.digitChar (byte.toNat / 16)) * 16 +
              digitValue (Nat.digitChar (byte.toNat % 16))), rest) := rfl
      rw [List.cons_append, List.cons_append, List.cons_append, List.cons_append, List.nil_append,
        read, digitValue_digitChar (by omega), digitValue_digitChar (by omega),
        Nat.div_add_mod', UInt8.ofNat_toNat]

/-- No byte is shown by a quote that stands for itself. -/
theorem escape_ne_quote (byte : UInt8) (rest left : List Char) :
    escape byte ++ rest ≠ '"' :: left := by
  intro same
  have read := readByte_escape byte rest
  rw [same, readByte_of_ne (by decide)] at read
  cases read
  have shown : escape (UInt8.ofNat '"'.toNat) = ['\\', '"'] := rfl
  rw [shown] at same
  exact absurd (List.head_eq_of_cons_eq same) (by decide)

theorem escapes_cut {key other : Bytes} {rest left : List Char}
    (same : key.flatMap escape ++ '"' :: rest = other.flatMap escape ++ '"' :: left) :
    key = other ∧ rest = left := by
  induction key generalizing other with
  | nil =>
      cases other with
      | nil => exact ⟨rfl, List.tail_eq_of_cons_eq same⟩
      | cons byte other =>
          rw [List.flatMap_cons, List.append_assoc] at same
          exact absurd same.symm (escape_ne_quote byte _ _)
  | cons byte key ih =>
      rw [List.flatMap_cons, List.append_assoc] at same
      cases other with
      | nil => exact absurd same (escape_ne_quote byte _ _)
      | cons otherByte other =>
          rw [List.flatMap_cons, List.append_assoc] at same
          have read := congrArg readByte same
          rw [readByte_escape, readByte_escape] at read
          simp only [Option.some.injEq, Prod.mk.injEq] at read
          rcases read with ⟨rfl, later⟩
          rcases ih later with ⟨rfl, followed⟩
          exact ⟨rfl, followed⟩

theorem toList_text (key : Bytes) :
    key.text.toList = 'b' :: '"' :: (key.flatMap escape ++ ['"']) := by
  simp [text]

end Bytes

namespace RowInterval

theorem bound_text_cut {bound other : Bound Bytes} {rest left : List Char}
    (same : (bound.text Bytes.text).toList ++ rest = (other.text Bytes.text).toList ++ left) :
    bound = other ∧ rest = left := by
  have keys {key otherKey : Bytes}
      (same : key.text.toList ++ ')' :: rest = otherKey.text.toList ++ ')' :: left) :
      key = otherKey ∧ rest = left := by
    simp only [Bytes.toList_text, List.cons_append, List.append_assoc, List.nil_append,
      List.cons.injEq, true_and] at same
    rcases Bytes.escapes_cut same with ⟨rfl, followed⟩
    exact ⟨rfl, List.tail_eq_of_cons_eq followed⟩
  cases bound <;> cases other
  case unbounded.unbounded => exact ⟨rfl, List.append_cancel_left same⟩
  case included.included key otherKey =>
    simp only [Bound.text, String.toList_append, List.append_assoc] at same
    rcases keys (List.append_cancel_left same) with ⟨rfl, followed⟩
    exact ⟨rfl, followed⟩
  case excluded.excluded key otherKey =>
    simp only [Bound.text, String.toList_append, List.append_assoc] at same
    rcases keys (List.append_cancel_left same) with ⟨rfl, followed⟩
    exact ⟨rfl, followed⟩
  all_goals simp [Bound.text] at same

/-- The text of an interval tells which one it is. -/
theorem text_injective : Function.Injective text := by
  intro interval other same
  have written := congrArg String.toList same
  unfold text at written
  simp only [String.toList_append, List.append_assoc] at written
  rcases bound_text_cut (List.append_cancel_left written) with ⟨lower, followed⟩
  rcases bound_text_cut (List.append_cancel_left followed) with ⟨upper, _⟩
  cases interval
  cases other
  cases lower
  cases upper
  rfl

example : text ⟨.included [0x6d], .excluded [0x22, 0xff]⟩ =
    "Span \x7b start: Included(b\"m\"), end: Excluded(b\"\\\"\\xff\") \x7d" := by
  decide

end RowInterval

end DataflowOps
