import DataflowOps.Proofs.Fetches

/-!
# The seek for a row

The seek walks the stored versions once. It skips those that are too new and those of a cell that
has been decided already, and it stops at the first row past the end of the query's rows. Here a row
is said to show a query without any walk, by the newest version of each of its cells, and the seek
is shown to find the least row that does.
-/

namespace DataflowOps

namespace Engine

/-- What a seek looks for: a row at or past the start, before the end of the query's rows, with a
value in a column that the query selects. -/
structure Seeks (engine : Engine) (start : Bound Bytes) (query : Query) (readAt : Timestamp)
    (row : Bytes) : Prop where
  atStart : start.admitsFromBelow row = true
  beforeEnd : query.rows.belowUpper row = true
  shows : ∃ column value, query.selects column = true ∧
    Entry.VisibleAmong ⟨row, column, value⟩ readAt engine.versions.entries

/-- Whether every value in the columns of a row that the query selects is too new or hidden by a
deletion that is not. -/
def HidesRow (engine : Engine) (query : Query) (readAt : Timestamp) (row : Bytes) : Prop :=
  ∀ column timestamp value, query.selects column = true →
    (⟨⟨row, column⟩, timestamp⟩, some value) ∈ engine.versions.entries →
      readAt < timestamp ∨ ∃ newer, (⟨⟨row, column⟩, newer⟩, none) ∈ engine.versions.entries ∧
        timestamp < newer ∧ ¬ readAt < newer

variable {engine : Engine} {start : Bound Bytes} {query : Query} {readAt : Timestamp}

theorem seeks_iff {row : Bytes} :
    engine.Seeks start query readAt row ↔ ∃ entry ∈ engine.visibleAt readAt,
      entry.row = row ∧ (start.admitsFromBelow entry.row && query.reaches entry) = true := by
  simp only [Query.reaches, Bool.and_eq_true]
  constructor
  · rintro ⟨atStart, beforeEnd, column, value, selected, visible⟩
    exact ⟨⟨row, column, value⟩, mem_visibleAt_iff.2 visible, rfl, atStart, beforeEnd, selected⟩
  · rintro ⟨⟨_, column, value⟩, visible, rfl, atStart, beforeEnd, selected⟩
    exact ⟨atStart, beforeEnd, column, value, selected, mem_visibleAt_iff.1 visible⟩

/-- A row of which every value is hidden shows nothing. -/
theorem HidesRow.not_seeks {row : Bytes} (hidden : engine.HidesRow query readAt row) :
    ¬ engine.Seeks start query readAt row := by
  rintro ⟨_, _, column, value, selected, timestamp, stored, shown, newest⟩
  rcases hidden column timestamp value selected stored with
    tooNew | ⟨newer, deleted, after, shownToo⟩
  · exact shown tooNew
  · exact newest _ deleted rfl shownToo after

end Engine

namespace Entry

/-- In ascending entries the first one that is chosen has the least row of those that are. -/
theorem Ascending.row_not_lt_of_find? {entries : List Entry} {chosen : Entry → Bool} {first : Entry}
    (ascending : Ascending entries) (found : entries.find? chosen = some first) :
    ∀ entry ∈ entries, chosen entry = true → ¬ entry.row < first.row := by
  intro entry member taken
  rcases List.find?_eq_some_iff_append.1 found with ⟨_, earlier, later, rfl, leftOut⟩
  rcases List.mem_append.1 member with before | after
  · have notTaken := leftOut entry before
    rw [taken] at notTaken
    cases notTaken
  · have ascendingThen : Ascending (first :: later) := (List.pairwise_append.1 ascending).2.1
    exact ascendingThen.row_not_lt_of_mem entry after

end Entry

namespace Snapshot

/-- The seek among versions in ascending order as it would be if it did not stop at the end of the
query's rows. -/
def leastVisibleRowThroughout (query : Query) (readAt : Timestamp) :
    (settled : Option CellAddress) → Versions → Option Bytes
  | _, [] => none
  | settled, (version, value) :: rest =>
    if readAt < version.timestamp ∨ settled = some version.cell then
      leastVisibleRowThroughout query readAt settled rest
    else if value.isSome && query.selects version.cell.column &&
        query.rows.belowUpper version.cell.row then some version.cell.row
    else leastVisibleRowThroughout query readAt (some version.cell) rest

theorem leastVisibleRowThroughout_eq (query : Query) (readAt : Timestamp)
    (settled : Option CellAddress) (versions : Versions) :
    leastVisibleRowThroughout query readAt settled versions =
      ((visibleAmong readAt settled versions).find? query.reaches).map Entry.row := by
  induction versions generalizing settled with
  | nil => rfl
  | cons head rest ih =>
      obtain ⟨version, value⟩ := head
      simp only [leastVisibleRowThroughout, visibleAmong]
      split
      · exact ih settled
      · cases value with
        | none => simpa using ih (some version.cell)
        | some value =>
            by_cases reached : query.reaches ⟨version.cell.row, version.cell.column, value⟩ = true
            · rw [List.find?_cons_of_pos reached]
              simp only [Query.reaches, Bool.and_eq_true] at reached
              simp [reached]
            · rw [List.find?_cons_of_neg reached, ← ih]
              simp only [Query.reaches, Bool.and_eq_true, not_and, Bool.not_eq_true] at reached
              split
              · next taken =>
                simp only [Bool.and_eq_true, Option.isSome_some, true_and] at taken
                exact absurd taken.1 (by simp [reached taken.2])
              · rfl

variable {engine : Engine} {start : Bound Bytes} {query : Query} {readAt : Timestamp}

theorem seeks_of_leastVisibleRow {row : Bytes}
    (found : leastVisibleRow start query readAt engine = some row) :
    engine.Seeks start query readAt row ∧
      ∀ other, engine.Seeks start query readAt other → ¬ other < row := by
  rw [leastVisibleRow_eq] at found
  rcases Option.map_eq_some_iff.1 found with ⟨first, met, rfl⟩
  have visible := List.mem_of_find?_eq_some met
  have chosen := List.find?_some met
  refine ⟨Engine.seeks_iff.2 ⟨first, visible, rfl, chosen⟩, ?_⟩
  intro other sought
  rcases Engine.seeks_iff.1 sought with ⟨entry, visible, rfl, chosen⟩
  exact Engine.visibleAt_ascending.row_not_lt_of_find? met entry visible chosen

theorem leastVisibleRow_eq_none_iff :
    leastVisibleRow start query readAt engine = none ↔
      ∀ row, ¬ engine.Seeks start query readAt row := by
  rw [leastVisibleRow_eq, Option.map_eq_none_iff, List.find?_eq_none]
  constructor
  · intro noneChosen row sought
    rcases Engine.seeks_iff.1 sought with ⟨entry, visible, _, chosen⟩
    exact noneChosen entry visible chosen
  · intro noneSought entry visible chosen
    exact noneSought entry.row (Engine.seeks_iff.2 ⟨entry, visible, rfl, chosen⟩)

theorem leastVisibleRow_eq_some_iff {row : Bytes} :
    leastVisibleRow start query readAt engine = some row ↔
      engine.Seeks start query readAt row ∧
        ∀ other, engine.Seeks start query readAt other → ¬ other < row := by
  constructor
  · exact seeks_of_leastVisibleRow
  · rintro ⟨sought, least⟩
    cases found : leastVisibleRow start query readAt engine with
    | none => exact absurd sought (leastVisibleRow_eq_none_iff.1 found row)
    | some other =>
        rcases seeks_of_leastVisibleRow found with ⟨otherSought, otherLeast⟩
        have same : other = row :=
          StrictTotalOrder.connected (least other otherSought) (otherLeast row sought)
        rw [same]

/-- The seek finds the least row at or past its start that lies before the end of the query's rows
and has a value in a selected column, and finds none only if there is no such row. It would find the
same row if it went on past the end, and never a row of which every value is hidden. -/
theorem seek_finds_least_row (start : Bound Bytes) (query : Query) (readAt : Timestamp)
    (engine : Engine) :
    (∀ row, leastVisibleRow start query readAt engine = some row ↔
      engine.Seeks start query readAt row ∧
        ∀ other, engine.Seeks start query readAt other → ¬ other < row) ∧
    (leastVisibleRow start query readAt engine = none ↔
      ∀ row, ¬ engine.Seeks start query readAt row) ∧
    leastVisibleRow start query readAt engine = leastVisibleRowThroughout query readAt none
      (engine.versions.entriesFrom (seekStart start)) ∧
    ∀ row, engine.HidesRow query readAt row →
      leastVisibleRow start query readAt engine ≠ some row := by
  refine ⟨fun row => leastVisibleRow_eq_some_iff, leastVisibleRow_eq_none_iff, ?_, ?_⟩
  · rw [leastVisibleRow, leastVisibleRowAmong_eq (engine.entriesFrom_ascending _),
      leastVisibleRowThroughout_eq]
  · intro row hidden found
    exact hidden.not_seeks (seeks_of_leastVisibleRow found).1

end Snapshot

end DataflowOps
