import Mathlib.Data.List.Dedup
import DataflowOps.Store.Snapshot

/-!
# Keys and their order

This file gives the facts about ordered keys on which the reading of the store rests. A list in
ascending order is determined by its members, an insertion is invisible to every selection that
leaves its key out, and the addresses at which a seek starts cut the versions exactly at the
boundaries of rows.
-/

namespace DataflowOps

namespace StrictTotalOrder

variable {Key : Type} [LT Key] [StrictTotalOrder Key]

theorem ne_of_lt {left right : Key} (before : left < right) : left ≠ right := by
  rintro rfl
  exact irrefl left before

theorem not_lt_iff {low high : Key} : ¬ high < low ↔ low < high ∨ low = high := by
  constructor
  · intro notAfter
    by_cases same : low = high
    · exact Or.inr same
    · exact Or.inl (lt_of_not_lt notAfter (Ne.symm same))
  · rintro (before | rfl)
    · exact asymm before
    · exact irrefl low

theorem lt_of_lt_of_not_lt {low middle high : Key} (before : low < middle)
    (notAfter : ¬ high < middle) : low < high := by
  rcases not_lt_iff.1 notAfter with later | rfl
  · exact trans before later
  · exact before

theorem lt_of_not_lt_of_lt {low middle high : Key} (notAfter : ¬ middle < low)
    (before : middle < high) : low < high := by
  rcases not_lt_iff.1 notAfter with earlier | rfl
  · exact trans earlier before
  · exact before

theorem not_lt_trans {low middle high : Key} (lowNotAfter : ¬ middle < low)
    (middleNotAfter : ¬ high < middle) : ¬ high < low := by
  intro after
  exact middleNotAfter (lt_of_lt_of_not_lt after lowNotAfter)

/-- Keys that never descend ascend once each of them is kept only once. -/
theorem dedup_ascending [DecidableEq Key] {keys : List Key}
    (neverDescend : keys.Pairwise fun left right => ¬ right < left) :
    keys.dedup.Pairwise (· < ·) := by
  refine ((List.nodup_dedup keys).and (neverDescend.sublist (List.dedup_sublist keys))).imp ?_
  rintro left right ⟨different, notAfter⟩
  exact lt_of_not_lt notAfter (Ne.symm different)

end StrictTotalOrder

/-- Two lists in ascending order with the same members are equal. -/
theorem eq_of_ascending {Item : Type} {precedes : Item → Item → Prop}
    (asymm : ∀ left right, precedes left right → ¬ precedes right left)
    {left right : List Item} (leftAscending : left.Pairwise precedes)
    (rightAscending : right.Pairwise precedes) (same : ∀ item, item ∈ left ↔ item ∈ right) :
    left = right := by
  have distinct {items : List Item} (ascending : items.Pairwise precedes) : items.Nodup := by
    refine ascending.imp ?_
    rintro item other before rfl
    exact asymm item item before before
  have permuted : left.Perm right :=
    (List.perm_ext_iff_of_nodup (distinct leftAscending) (distinct rightAscending)).2 same
  refine permuted.eq_of_pairwise ?_ leftAscending rightAscending
  intro item other _ _ before after
  exact absurd after (asymm item other before)

namespace OrderedMap

variable {Key Value : Type} [LT Key]

theorem keys_ascending (map : OrderedMap Key Value) : map.keys.Pairwise (· < ·) :=
  List.pairwise_map.2 map.ascending

theorem keys_nodup [StrictTotalOrder Key] (map : OrderedMap Key Value) : map.keys.Nodup :=
  map.keys_ascending.imp StrictTotalOrder.ne_of_lt

theorem entry_asymm [StrictTotalOrder Key] (left right : Key × Value) (before : left.1 < right.1) :
    ¬ right.1 < left.1 :=
  StrictTotalOrder.asymm before

variable [DecidableLT Key] [StrictTotalOrder Key]

theorem filter_entries_insert {key : Key} {value : Value} {map : OrderedMap Key Value}
    {selected : Key → Bool} (leftOut : selected key = false) :
    (map.insert key value).entries.filter (fun entry => selected entry.1) =
      map.entries.filter (fun entry => selected entry.1) := by
  refine eq_of_ascending entry_asymm ((map.insert key value).ascending.filter _)
    (map.ascending.filter _) ?_
  · intro entry
    simp only [List.mem_filter, mem_entries_insert]
    constructor
    · rintro ⟨rfl | ⟨_, member⟩, chosen⟩
      · simp [leftOut] at chosen
      · exact ⟨member, chosen⟩
    · rintro ⟨member, chosen⟩
      refine ⟨Or.inr ⟨?_, member⟩, chosen⟩
      rintro same
      simp [same, leftOut] at chosen

end OrderedMap

namespace Bytes

/-- A row lies before the successor of another one exactly if it does not lie after that one. -/
theorem lt_successor_iff {row bound : Bytes} : row < bound.successor ↔ ¬ bound < row := by
  unfold successor
  induction row generalizing bound with
  | nil => cases bound <;> simp [List.nil_lt_cons]
  | cons byte rest ih =>
      cases bound with
      | nil => simp [List.cons_lt_cons_iff]
      | cons head tail =>
          simp only [List.cons_append, List.cons_lt_cons_iff, ih]
          constructor
          · rintro (before | ⟨rfl, notAfter⟩) (after | ⟨same, after⟩)
            · exact UInt8.lt_asymm before after
            · exact UInt8.lt_irrefl _ (same ▸ before)
            · exact UInt8.lt_irrefl _ after
            · exact notAfter after
          · intro notAfter
            by_cases before : byte < head
            · exact Or.inl before
            · have same : byte = head := StrictTotalOrder.connected before fun after =>
                notAfter (Or.inl after)
              exact Or.inr ⟨same, fun after => notAfter (Or.inr ⟨same.symm, after⟩)⟩

end Bytes

namespace Bound

variable {Key : Type} [LT Key] [DecidableLT Key] [StrictTotalOrder Key]

theorem admitsFromAbove_of_not_lt {bound : Bound Key} {low high : Key}
    (admitted : bound.admitsFromAbove high = true) (notAfter : ¬ high < low) :
    bound.admitsFromAbove low = true := by
  cases bound with
  | unbounded => rfl
  | included key =>
      simp only [admitsFromAbove, Bool.not_eq_true', decide_eq_false_iff_not] at admitted ⊢
      exact StrictTotalOrder.not_lt_trans notAfter admitted
  | excluded key =>
      simp only [admitsFromAbove, decide_eq_true_eq] at admitted ⊢
      exact StrictTotalOrder.lt_of_not_lt_of_lt notAfter admitted

end Bound

namespace Column

theorem not_lt_least (column : Column) : ¬ column < least := by
  rintro (before | ⟨_, before⟩)
  · exact List.not_lt_nil _ before
  · exact List.not_lt_nil _ before

end Column

namespace Timestamp

theorem not_last_lt (timestamp : Timestamp) : ¬ last < timestamp := by
  intro before
  have above : (0xffffffffffffffff : UInt64) < timestamp.ticks := before
  have bounded := timestamp.ticks.toNat_lt
  rw [UInt64.lt_iff_toNat_lt] at above
  simp at above
  omega

end Timestamp

namespace CellAddress

theorem lt_iff {left right : CellAddress} :
    left < right ↔ left.row < right.row ∨ left.row = right.row ∧ left.column < right.column :=
  Iff.rfl

theorem row_not_lt_of_lt {left right : CellAddress} (before : left < right) :
    ¬ right.row < left.row := by
  rcases lt_iff.1 before with rowBefore | ⟨sameRow, _⟩
  · exact StrictTotalOrder.asymm rowBefore
  · rw [sameRow]
    exact StrictTotalOrder.irrefl _

end CellAddress

namespace VersionAddress

theorem lt_iff {left right : VersionAddress} :
    left < right ↔
      left.cell < right.cell ∨ left.cell = right.cell ∧ right.timestamp < left.timestamp :=
  Iff.rfl

theorem cell_not_lt_of_lt {left right : VersionAddress} (before : left < right) :
    ¬ right.cell < left.cell := by
  rcases lt_iff.1 before with cellBefore | ⟨sameCell, _⟩
  · exact StrictTotalOrder.asymm cellBefore
  · rw [sameCell]
    exact StrictTotalOrder.irrefl _

theorem row_not_lt_of_lt {left right : VersionAddress} (before : left < right) :
    ¬ right.cell.row < left.cell.row := by
  rcases lt_iff.1 before with cellBefore | ⟨sameCell, _⟩
  · exact CellAddress.row_not_lt_of_lt cellBefore
  · rw [sameCell]
    exact StrictTotalOrder.irrefl _

/-- A version precedes the floor of a row exactly if its own row precedes that row. -/
theorem lt_floor_iff {version : VersionAddress} {row : Bytes} :
    version < floor row ↔ version.cell.row < row := by
  constructor
  · rintro (before | ⟨_, newer⟩)
    · rcases CellAddress.lt_iff.1 before with rowBefore | ⟨_, columnBefore⟩
      · exact rowBefore
      · exact absurd columnBefore (Column.not_lt_least _)
    · exact absurd newer (Timestamp.not_last_lt _)
  · intro before
    exact Or.inl (Or.inl before)

end VersionAddress

namespace Snapshot

theorem seekStart_admits (start : Bound Bytes) (version : VersionAddress) :
    (seekStart start).admitsFromBelow version = start.admitsFromBelow version.cell.row := by
  cases start with
  | unbounded => rfl
  | included row => simp [seekStart, Bound.admitsFromBelow, VersionAddress.lt_floor_iff]
  | excluded row =>
      simp only [seekStart, Bound.admitsFromBelow, VersionAddress.lt_floor_iff,
        Bytes.lt_successor_iff, decide_not, Bool.not_not]

end Snapshot

namespace RowInterval

theorem contains_eq_false_of_isEmpty {interval : RowInterval} (empty : interval.isEmpty = true)
    (row : Bytes) : interval.contains row = false := by
  obtain ⟨lower, upper⟩ := interval
  rw [Bool.eq_false_iff]
  intro contained
  simp only [contains, aboveLower, belowUpper, Bool.and_eq_true] at contained
  rcases contained with ⟨above, below⟩
  cases lower <;> cases upper <;>
    simp only [isEmpty, Bound.admitsFromBelow, Bound.admitsFromAbove, decide_eq_true_eq,
      Bool.not_eq_true', decide_eq_false_iff_not, Bool.false_eq_true] at empty above below
  case included.included low high =>
    exact StrictTotalOrder.not_lt_trans above below empty
  case included.excluded low high =>
    exact empty (StrictTotalOrder.lt_of_not_lt_of_lt above below)
  case excluded.included low high =>
    exact empty (StrictTotalOrder.lt_of_lt_of_not_lt above below)
  case excluded.excluded low high =>
    exact empty (StrictTotalOrder.trans above below)

end RowInterval

end DataflowOps
