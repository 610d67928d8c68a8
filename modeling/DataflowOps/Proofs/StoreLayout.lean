import Mathlib.Data.List.Dedup
import Mathlib.Order.Cover
import DataflowOps.Proofs.Intervals
import DataflowOps.Proofs.Visibility

/-!
# How the store lies in its order

The store keeps the versions of all cells in one ascending list. This file shows that the list is
nested: row after row, in a row column after column, and in a column from the newest version to the
oldest. The address at which a seek for a row starts cuts the list right before the versions of the
row, and that of the row's successor right behind them, so that seeks neither skip a row nor meet
one twice.
-/

namespace DataflowOps

section Groups

variable {Item Key : Type} [DecidableEq Key] {precedes : Item → Item → Prop} {key : Item → Key}
  {items : List Item}

/-- The keys of some items, each once. -/
def keysOf (key : Item → Key) (items : List Item) : List Key :=
  (items.map key).dedup

/-- The items that have a key. -/
def groupOf (key : Item → Key) (chosen : Key) (items : List Item) : List Item :=
  items.filter fun item => key item = chosen

theorem mem_keysOf_iff {chosen : Key} :
    chosen ∈ keysOf key items ↔ ∃ item ∈ items, key item = chosen := by
  simp [keysOf]

theorem mem_groupOf_iff {chosen : Key} {item : Item} :
    item ∈ groupOf key chosen items ↔ item ∈ items ∧ key item = chosen := by
  simp [groupOf]

variable [LT Key] [StrictTotalOrder Key]

theorem keysOf_ascending (asymm : ∀ left right, precedes left right → ¬ precedes right left)
    (ascending : items.Pairwise precedes)
    (respects : ∀ left ∈ items, ∀ right ∈ items, key left < key right → precedes left right) :
    (keysOf key items).Pairwise (· < ·) := by
  apply StrictTotalOrder.dedup_ascending
  apply List.pairwise_map.2
  refine ascending.imp_of_mem ?_
  intro left right leftMember rightMember before after
  exact asymm left right before (respects right rightMember left leftMember after)

/-- Items in an order that respects a key are the groups of its keys, one after the other. -/
theorem flatMap_groupOf (asymm : ∀ left right, precedes left right → ¬ precedes right left)
    (ascending : items.Pairwise precedes)
    (respects : ∀ left ∈ items, ∀ right ∈ items, key left < key right → precedes left right) :
    items = (keysOf key items).flatMap fun chosen => groupOf key chosen items := by
  refine eq_of_ascending asymm ascending ?_ ?_
  -- In a group the order is that of the items, and between groups that of their keys.
  · refine List.pairwise_flatMap.2 ⟨fun chosen _ => ascending.filter _, ?_⟩
    refine (keysOf_ascending asymm ascending respects).imp ?_
    intro chosen other before left leftGrouped right rightGrouped
    rcases mem_groupOf_iff.1 leftGrouped with ⟨leftMember, rfl⟩
    rcases mem_groupOf_iff.1 rightGrouped with ⟨rightMember, rfl⟩
    exact respects left leftMember right rightMember before
  · intro item
    constructor
    · intro member
      apply List.mem_flatMap.2
      exact ⟨key item, mem_keysOf_iff.2 ⟨item, member, rfl⟩, mem_groupOf_iff.2 ⟨member, rfl⟩⟩
    · intro member
      rcases List.mem_flatMap.1 member with ⟨chosen, _, grouped⟩
      exact (mem_groupOf_iff.1 grouped).1

end Groups

namespace Bound

variable {Key : Type} [LT Key] [DecidableLT Key] [StrictTotalOrder Key]

/-- What a bound leaves out comes before what it admits. -/
theorem lt_of_admitsFromBelow {bound : Bound Key} {low high : Key}
    (leftOut : ¬ bound.admitsFromBelow low = true) (admitted : bound.admitsFromBelow high = true) :
    low < high := by
  apply StrictTotalOrder.lt_of_not_lt
  · intro before
    exact leftOut (admitsFromBelow_of_lt admitted before)
  · rintro rfl
    exact leftOut admitted

end Bound

namespace OrderedMap

variable {Key Value : Type} [LT Key] [DecidableLT Key] [StrictTotalOrder Key]

/-- A seek meets what lies between its start and a later one, and then what the later one meets. -/
theorem entriesFrom_eq_append {start stop : Bound Key} {between : Key → Prop}
    [DecidablePred between] (map : OrderedMap Key Value)
    (covers : ∀ key, start.admitsFromBelow key = true ↔
      between key ∨ stop.admitsFromBelow key = true)
    (apart : ∀ key, between key → ¬ stop.admitsFromBelow key = true) :
    map.entriesFrom start =
      (map.entries.filter fun entry => between entry.1) ++ map.entriesFrom stop := by
  simp only [entriesFrom_eq_filter]
  refine eq_of_ascending entry_asymm (map.ascending.filter _) ?_ ?_
  · refine List.pairwise_append.2 ⟨map.ascending.filter _, map.ascending.filter _, ?_⟩
    intro left leftMember right rightMember
    have leftBetween := of_decide_eq_true (List.mem_filter.1 leftMember).2
    exact Bound.lt_of_admitsFromBelow (apart left.1 leftBetween) (List.mem_filter.1 rightMember).2
  · intro entry
    simp only [List.mem_append, List.mem_filter, covers, and_or_left, decide_eq_true_eq]

end OrderedMap

namespace Bytes

/-- There is no row between a row and its successor. -/
theorem covBy_successor (row : Bytes) : row ⋖ row.successor := by
  refine ⟨lt_successor row, ?_⟩
  intro key after
  exact fun before => lt_successor_iff.1 before after

theorem le_iff {row other : Bytes} : row ≤ other ↔ other = row ∨ row < other := by
  rw [← List.not_lt, StrictTotalOrder.not_lt_iff, or_comm, eq_comm]

end Bytes

namespace VersionAddress

variable {version : VersionAddress} {row : Bytes}

/-- A version comes at or before another one. -/
instance : LE VersionAddress := ⟨fun left right => left < right ∨ left = right⟩

theorem le_iff_not_lt {left right : VersionAddress} : left ≤ right ↔ ¬ right < left :=
  StrictTotalOrder.not_lt_iff.symm

theorem admitsFromBelow_included_iff {low : VersionAddress} :
    (Bound.included low).admitsFromBelow version = true ↔ low ≤ version := by
  rw [le_iff_not_lt]
  simp [Bound.admitsFromBelow]

/-- The floor of a row lies at or before the versions of the row and of later rows. -/
theorem floor_le_iff : floor row ≤ version ↔ row ≤ version.cell.row := by
  rw [le_iff_not_lt, lt_floor_iff, List.not_lt]

/-- The floor of a row's successor lies at or before the versions of later rows alone. -/
theorem floor_successor_le_iff : floor row.successor ≤ version ↔ row < version.cell.row := by
  rw [le_iff_not_lt, lt_floor_iff, Bytes.lt_successor_iff, not_not]

theorem admits_floor_iff :
    (Bound.included (floor row)).admitsFromBelow version = true ↔ row ≤ version.cell.row :=
  admitsFromBelow_included_iff.trans floor_le_iff

theorem admits_floor_successor_iff :
    (Bound.included (floor row.successor)).admitsFromBelow version = true ↔
      row < version.cell.row :=
  admitsFromBelow_included_iff.trans floor_successor_le_iff

end VersionAddress

namespace Versions

/-- The rows that have versions, each once. -/
def rows (versions : Versions) : List Bytes :=
  keysOf (fun entry => entry.1.cell.row) versions

def ofRow (row : Bytes) (versions : Versions) : Versions :=
  groupOf (fun entry => entry.1.cell.row) row versions

def ofRowsBefore (row : Bytes) (versions : Versions) : Versions :=
  versions.filter fun entry => entry.1.cell.row < row

def ofRowsPast (row : Bytes) (versions : Versions) : Versions :=
  versions.filter fun entry => row < entry.1.cell.row

/-- The columns in which a row has versions, each once. -/
def columnsOf (row : Bytes) (versions : Versions) : List Column :=
  keysOf (fun entry => entry.1.cell.column) (versions.ofRow row)

def ofCell (cell : CellAddress) (versions : Versions) : Versions :=
  groupOf (fun entry => entry.1.cell) cell versions

variable {versions : Versions}

theorem lt_of_row_lt (left right : VersionAddress × Option Bytes)
    (before : left.1.cell.row < right.1.cell.row) : left.1 < right.1 :=
  Or.inl (Or.inl before)

theorem lt_of_column_lt {row : Bytes} (left : VersionAddress × Option Bytes)
    (leftMember : left ∈ versions.ofRow row) (right : VersionAddress × Option Bytes)
    (rightMember : right ∈ versions.ofRow row)
    (before : left.1.cell.column < right.1.cell.column) : left.1 < right.1 := by
  have sameRow : left.1.cell.row = right.1.cell.row :=
    (mem_groupOf_iff.1 leftMember).2.trans (mem_groupOf_iff.1 rightMember).2.symm
  exact Or.inl (Or.inr ⟨sameRow, before⟩)

theorem ofRow_ascending (ascending : versions.Ascending) (row : Bytes) :
    Ascending (versions.ofRow row) :=
  ascending.filter _

theorem rows_ascending (ascending : versions.Ascending) : versions.rows.Pairwise (· < ·) :=
  keysOf_ascending OrderedMap.entry_asymm ascending fun left _ right _ => lt_of_row_lt left right

/-- Versions in ascending order come row after row. -/
theorem eq_flatMap_ofRow (ascending : versions.Ascending) :
    versions = versions.rows.flatMap fun row => versions.ofRow row :=
  flatMap_groupOf OrderedMap.entry_asymm ascending fun left _ right _ => lt_of_row_lt left right

theorem columnsOf_ascending (ascending : versions.Ascending) (row : Bytes) :
    (versions.columnsOf row).Pairwise (· < ·) :=
  keysOf_ascending OrderedMap.entry_asymm (ofRow_ascending ascending row) lt_of_column_lt

/-- The versions of a row that are in a column are those of a cell. -/
theorem groupOf_column (row : Bytes) (column : Column) :
    groupOf (fun entry => entry.1.cell.column) column (versions.ofRow row) =
      versions.ofCell ⟨row, column⟩ := by
  have parts (cell : CellAddress) :
      cell = ⟨row, column⟩ ↔ cell.column = column ∧ cell.row = row := by
    cases cell
    simp [and_comm]
  simp only [ofRow, ofCell, groupOf, List.filter_filter, parts, Bool.decide_and]

/-- The versions of a row in ascending order come column after column. -/
theorem ofRow_eq_flatMap_ofCell (ascending : versions.Ascending) (row : Bytes) :
    versions.ofRow row =
      (versions.columnsOf row).flatMap fun column => versions.ofCell ⟨row, column⟩ := by
  have rowAscending := ofRow_ascending ascending row
  have grouped := flatMap_groupOf OrderedMap.entry_asymm rowAscending lt_of_column_lt
  simp only [groupOf_column] at grouped
  exact grouped

example :
    let versions : Versions :=
      [(⟨⟨[0x72], .least⟩, .last⟩, none), (⟨⟨[0x72], .least⟩, .zero⟩, some [1]),
        (⟨⟨[0x72], ⟨[0x66], []⟩⟩, .zero⟩, some [2]), (⟨⟨[0x72, 0], .least⟩, .last⟩, none)]
    versions.rows = [[0x72], [0x72, 0]] ∧ versions.columnsOf [0x72] = [.least, ⟨[0x66], []⟩] := by
  decide

/-- Of a cell, newer versions come before older ones. -/
theorem ofCell_newestFirst (ascending : versions.Ascending) (cell : CellAddress) :
    (versions.ofCell cell).Pairwise fun left right => right.1.timestamp < left.1.timestamp := by
  refine List.Pairwise.imp_of_mem ?_ (ascending.filter _)
  intro left right leftMember rightMember before
  have sameCell : left.1.cell = right.1.cell :=
    (mem_groupOf_iff.1 leftMember).2.trans (mem_groupOf_iff.1 rightMember).2.symm
  rcases VersionAddress.lt_iff.1 before with cellBefore | ⟨_, newer⟩
  · exact absurd sameCell (StrictTotalOrder.ne_of_lt cellBefore)
  · exact newer

end Versions

namespace Engine

/-- All versions that the engine stores, in the order in which it keeps them. -/
def stored (engine : Engine) : Versions :=
  engine.versions.entries

/-- How the versions of a row lie in the store. -/
structure LaysOut (engine : Engine) (row : Bytes) : Prop where
  /-- They are in one piece, between those of earlier and those of later rows. -/
  inOnePiece : engine.stored =
    engine.stored.ofRowsBefore row ++ (engine.stored.ofRow row ++ engine.stored.ofRowsPast row)
  /-- From the floor of the row a seek meets them first and then those of later rows. -/
  fromFloor : engine.versions.entriesFrom (.included (.floor row)) =
    engine.stored.ofRow row ++ engine.stored.ofRowsPast row
  /-- From the floor of the row's successor a seek meets those of later rows alone. -/
  fromSuccessor : engine.versions.entriesFrom (.included (.floor row.successor)) =
    engine.stored.ofRowsPast row
  columnsAscending : (engine.stored.columnsOf row).Pairwise (· < ·)
  /-- They come column after column. -/
  byColumn : engine.stored.ofRow row =
    (engine.stored.columnsOf row).flatMap fun column => engine.stored.ofCell ⟨row, column⟩
  newestFirst : ∀ column, (engine.stored.ofCell ⟨row, column⟩).Pairwise
    fun left right => right.1.timestamp < left.1.timestamp

variable {engine : Engine}

theorem stored_ascending : Versions.Ascending engine.stored :=
  engine.versions.ascending

/-- Before the floor of a row lie the versions of earlier rows. -/
theorem stored_eq_append (row : Bytes) :
    engine.stored =
      engine.stored.ofRowsBefore row ++ engine.versions.entriesFrom (.included (.floor row)) := by
  have whole : engine.versions.entriesFrom .unbounded = engine.stored := by
    simp [OrderedMap.entriesFrom_eq_filter, Bound.admitsFromBelow, stored]
  have covers (version : VersionAddress) : Bound.unbounded.admitsFromBelow version = true ↔
      version.cell.row < row ∨
        (Bound.included (.floor row)).admitsFromBelow version = true := by
    rw [VersionAddress.admits_floor_iff, ← List.not_lt]
    exact iff_of_true rfl (Classical.em _)
  have apart (version : VersionAddress) (before : version.cell.row < row) :
      ¬ (Bound.included (.floor row)).admitsFromBelow version = true := by
    rw [VersionAddress.admits_floor_iff, List.not_le]
    exact before
  exact whole.symm.trans (engine.versions.entriesFrom_eq_append covers apart)

/-- From the floor of a row's successor on lie the versions of later rows. -/
theorem entriesFrom_floor_successor (row : Bytes) :
    engine.versions.entriesFrom (.included (.floor row.successor)) =
      engine.stored.ofRowsPast row := by
  rw [OrderedMap.entriesFrom_eq_filter]
  apply List.filter_congr
  intro entry _
  apply Bool.eq_iff_iff.2
  exact VersionAddress.admits_floor_successor_iff.trans decide_eq_true_iff.symm

/-- Between the floors of a row and of its successor lie the versions of the row. -/
theorem entriesFrom_floor (row : Bytes) :
    engine.versions.entriesFrom (.included (.floor row)) =
      engine.stored.ofRow row ++ engine.stored.ofRowsPast row := by
  have covers (version : VersionAddress) :
      (Bound.included (.floor row)).admitsFromBelow version = true ↔
        version.cell.row = row ∨
          (Bound.included (.floor row.successor)).admitsFromBelow version = true := by
    rw [VersionAddress.admits_floor_iff, VersionAddress.admits_floor_successor_iff]
    exact Bytes.le_iff
  have apart (version : VersionAddress) (inRow : version.cell.row = row) :
      ¬ (Bound.included (.floor row.successor)).admitsFromBelow version = true := by
    rw [VersionAddress.admits_floor_successor_iff, inRow]
    exact StrictTotalOrder.irrefl row
  rw [← entriesFrom_floor_successor]
  exact engine.versions.entriesFrom_eq_append covers apart

/-- The store lies so for every row, also for one without versions. -/
theorem laysOut (engine : Engine) (row : Bytes) : engine.LaysOut row where
  inOnePiece := by
    rw [← entriesFrom_floor]
    exact stored_eq_append row
  fromFloor := entriesFrom_floor row
  fromSuccessor := entriesFrom_floor_successor row
  columnsAscending := Versions.columnsOf_ascending stored_ascending row
  byColumn := Versions.ofRow_eq_flatMap_ofCell stored_ascending row
  newestFirst column := Versions.ofCell_newestFirst stored_ascending ⟨row, column⟩

/-- The floor of a row lies at or before the versions of that row and of later ones, the floor of
its successor at or before those of later rows alone, and there is no row between a row and its
successor. The store is therefore its rows in ascending order, each in one piece between the two
floors, and a row is its columns in ascending order, each with its newest version first. -/
theorem floors_cut_store_at_rows (engine : Engine) :
    (∀ row version, VersionAddress.floor row ≤ version ↔ row ≤ version.cell.row) ∧
      (∀ row version, VersionAddress.floor (Bytes.successor row) ≤ version ↔
        row < version.cell.row) ∧
      (∀ row : Bytes, row ⋖ row.successor) ∧
      (∀ row, engine.LaysOut row) ∧
      engine.stored.rows.Pairwise (· < ·) ∧
      engine.stored = engine.stored.rows.flatMap fun row => engine.stored.ofRow row := by
  refine ⟨?_, ?_, ?_, engine.laysOut, ?_, ?_⟩
  · intro row version
    exact VersionAddress.floor_le_iff
  · intro row version
    exact VersionAddress.floor_successor_le_iff
  · exact Bytes.covBy_successor
  · exact Versions.rows_ascending stored_ascending
  · exact Versions.eq_flatMap_ofRow stored_ascending

end Engine

end DataflowOps
