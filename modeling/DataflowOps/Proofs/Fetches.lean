import DataflowOps.Proofs.Operations
import DataflowOps.Proofs.Visibility

/-!
# What the fetches of a snapshot yield

The row sequence and the column cursors seek the store anew at every fetch. Here each of them is
given the entries that remain to be handed out, as a selection of the entries visible at the
snapshot's timestamp, and each fetch is shown to yield the first of these and to leave the others.
So a fetch depends on the store only through what is visible at the timestamp.
-/

namespace DataflowOps

namespace Query

/-- Whether an entry lies before the end of the query's rows in a column that it selects. -/
def reaches (query : Query) (entry : Entry) : Bool :=
  query.rows.belowUpper entry.row && query.selects entry.column

/-- Whether the query asks for an entry. -/
def covers (query : Query) (entry : Entry) : Bool :=
  query.rows.contains entry.row && query.selects entry.column

end Query

namespace Entry

theorem row_not_lt_of_cell_lt {left right : Entry} (before : left.cell < right.cell) :
    ¬ right.row < left.row :=
  CellAddress.row_not_lt_of_lt before

theorem Ascending.row_not_lt_of_mem {first : Entry} {rest : List Entry}
    (ascending : Ascending (first :: rest)) : ∀ entry ∈ first :: rest, ¬ entry.row < first.row := by
  intro entry member
  rcases List.mem_cons.1 member with rfl | member
  · exact StrictTotalOrder.irrefl _
  · exact row_not_lt_of_cell_lt ((List.pairwise_cons.1 ascending).1 entry member)

theorem cell_lt_of_row_lt {left right : Entry} (before : left.row < right.row) :
    left.cell < right.cell :=
  Or.inl before

end Entry

namespace Snapshot

variable {readAt : Timestamp} {query : Query}

theorem leastVisibleRowAmong_eq {settled : Option CellAddress} {versions : Versions}
    (ascending : versions.Ascending) :
    leastVisibleRowAmong query readAt settled versions =
      ((visibleAmong readAt settled versions).find? query.reaches).map Entry.row := by
  induction versions generalizing settled with
  | nil => rfl
  | cons head rest ih =>
      rcases List.pairwise_cons.1 ascending with ⟨_, restAscending⟩
      have headFirst := Versions.cell_not_lt_of_mem ascending
      obtain ⟨version, value⟩ := head
      cases below : query.rows.belowUpper version.cell.row with
      | false =>
          -- The rows ascend, so nothing after the first row past the end is reached.
          have unreached : ∀ entry ∈ visibleAmong readAt settled ((version, value) :: rest),
              ¬ query.reaches entry = true := by
            intro entry found reached
            rcases exists_version_of_mem_visibleAmong found with ⟨timestamp, member⟩
            simp only [Query.reaches, Bool.and_eq_true] at reached
            have notAfter : ¬ entry.row < version.cell.row := fun before =>
              headFirst _ member (Or.inl before)
            have reachedFirst := Bound.admitsFromAbove_of_not_lt reached.1 notAfter
            simp only [RowInterval.belowUpper] at below
            rw [below] at reachedFirst
            cases reachedFirst
          rw [List.find?_eq_none.2 unreached]
          simp [leastVisibleRowAmong, below]
      | true =>
          simp only [leastVisibleRowAmong, visibleAmong, below, Bool.not_true, Bool.false_eq_true,
            if_false]
          split
          · exact ih restAscending
          · cases value with
            | none => simpa using ih restAscending
            | some value =>
                cases selected : query.selects version.cell.column with
                | false => simpa [selected, Query.reaches] using ih restAscending
                | true => simp [selected, Query.reaches, below]

theorem visibleAmong_entriesFrom {engine : Engine} (start : Bound Bytes) :
    visibleAmong readAt none (engine.versions.entriesFrom (seekStart start)) =
      (engine.visibleAt readAt).filter fun entry => start.admitsFromBelow entry.row := by
  rw [OrderedMap.entriesFrom_eq_filter]
  simp only [seekStart_admits]
  exact visibleAmong_filter engine.versions.ascending
    (fun version => start.admitsFromBelow version.cell.row)
    (fun cell => start.admitsFromBelow cell.row) (by simp) (by simp) (fun _ _ => rfl)

theorem leastVisibleRow_eq (start : Bound Bytes) (query : Query) (readAt : Timestamp)
    (engine : Engine) :
    leastVisibleRow start query readAt engine =
      ((engine.visibleAt readAt).find? fun entry =>
        start.admitsFromBelow entry.row && query.reaches entry).map Entry.row := by
  rw [leastVisibleRow, leastVisibleRowAmong_eq (engine.entriesFrom_ascending _),
    visibleAmong_entriesFrom, List.find?_filter]
  simp

/-- What the rows still to be fetched hold, of the entries visible at the snapshot's timestamp. -/
def remaining (snapshot : Snapshot) (visible : List Entry) : List Entry :=
  if snapshot.atEnd then []
  else visible.filter fun entry =>
    snapshot.continuation.admitsFromBelow entry.row && snapshot.query.reaches entry

def ended (snapshot : Snapshot) : Snapshot := { snapshot with atEnd := true }

def past (snapshot : Snapshot) (row : Bytes) : Snapshot :=
  { snapshot with continuation := .excluded row }

theorem remaining_opened (readAt : Timestamp) (query : Query) (visible : List Entry) :
    remaining ⟨readAt, query, query.rows.lower, query.rows.isEmpty⟩ visible =
      visible.filter query.covers := by
  simp only [remaining]
  split
  · next empty =>
    symm
    apply List.filter_eq_nil_iff.2
    intro entry _
    simp [Query.covers, RowInterval.contains_eq_false_of_isEmpty empty]
  · apply List.filter_congr
    intro entry _
    simp [Query.covers, Query.reaches, RowInterval.contains, RowInterval.aboveLower,
      Bool.and_assoc]

variable {engine : Engine} {snapshot : Snapshot}

theorem fetchRow_of_offline (offline : engine.available = false) :
    snapshot.fetchRow engine = (.error Engine.offline, snapshot) := by
  simp [fetchRow, offline]

theorem fetchRow_of_remaining_nil (available : engine.available = true)
    (noneLeft : snapshot.remaining (engine.visibleAt snapshot.readAt) = []) :
    snapshot.fetchRow engine = (.ok none, snapshot.ended) := by
  cases atEnd : snapshot.atEnd with
  | true =>
      simp only [fetchRow, available, atEnd, ended]
      simp [← atEnd]
  | false =>
      have nothing := leastVisibleRow_eq snapshot.continuation snapshot.query snapshot.readAt
        engine
      simp only [remaining, atEnd, Bool.false_eq_true, if_false] at noneLeft
      rw [← List.head?_filter, noneLeft] at nothing
      simp [fetchRow, available, atEnd, nothing, ended]

theorem fetchRow_of_remaining_cons {entry : Entry} {rest : List Entry}
    (available : engine.available = true)
    (left : snapshot.remaining (engine.visibleAt snapshot.readAt) = entry :: rest) :
    snapshot.fetchRow engine = (.ok (some entry.row), snapshot.past entry.row) := by
  cases atEnd : snapshot.atEnd with
  | true => simp [remaining, atEnd] at left
  | false =>
      have found := leastVisibleRow_eq snapshot.continuation snapshot.query snapshot.readAt
        engine
      simp only [remaining, atEnd, Bool.false_eq_true, if_false] at left
      rw [← List.head?_filter, left] at found
      simp only [List.head?_cons, Option.map_some] at found
      simp [fetchRow, available, atEnd, found, past]

end Snapshot

namespace ColumnCursor

/-- Where a cursor stands as long as its row has not ended: at the start of the row, or on the
version of a cell of the row that it has handed out last. -/
def Standing (cursor : ColumnCursor) : Prop :=
  cursor.lastMet = none ∧ cursor.settled = none ∨
    ∃ cell timestamp, cursor.lastMet = some ⟨cell, timestamp⟩ ∧ cursor.settled = some cell ∧
      cell.row = cursor.row

def on (entry : Entry) (timestamp : Timestamp) : ColumnCursor :=
  ⟨entry.row, some ⟨entry.cell, timestamp⟩, some entry.cell⟩

def isPast : (settled : Option CellAddress) → CellAddress → Bool
  | none, _ => true
  | some settled, cell => decide (settled < cell)

/-- What the row still holds for the cursor, of the entries visible at the snapshot's timestamp. -/
def remaining (cursor : ColumnCursor) (query : Query) (visible : List Entry) : List Entry :=
  visible.filter fun entry =>
    decide (entry.row = cursor.row) && query.selects entry.column &&
      isPast cursor.settled entry.cell

theorem mem_remaining_iff {cursor : ColumnCursor} {query : Query} {visible : List Entry}
    {entry : Entry} :
    entry ∈ cursor.remaining query visible ↔
      entry ∈ visible ∧ entry.row = cursor.row ∧ query.selects entry.column = true ∧
        isPast cursor.settled entry.cell = true := by
  simp [remaining, and_assoc]

theorem remaining_ascending {cursor : ColumnCursor} {query : Query} {visible : List Entry}
    (ascending : Entry.Ascending visible) : Entry.Ascending (cursor.remaining query visible) :=
  ascending.filter _

@[simp]
theorem standing_atStart (row : Bytes) : (atStart row).Standing :=
  Or.inl ⟨rfl, rfl⟩

@[simp]
theorem standing_on (entry : Entry) (timestamp : Timestamp) : (on entry timestamp).Standing :=
  Or.inr ⟨entry.cell, timestamp, rfl, rfl, rfl⟩

/-- The walk for a column finds the first visible entry of the row in a column that the query
selects, and stops on a version of its cell. -/
theorem advance_spec (cursor : ColumnCursor) {query : Query} {readAt : Timestamp}
    {versions : Versions} (ascending : versions.Ascending)
    (rowFirst : ∀ entry ∈ versions, ¬ entry.1.cell.row < cursor.row) {found : Option Entry}
    (first : (Snapshot.visibleAmong readAt cursor.settled versions).find? (fun entry =>
      decide (entry.row = cursor.row) && query.selects entry.column) = found) :
    (cursor.advance query readAt versions).1 =
        found.map (fun entry => (entry.column, entry.value)) ∧
      ∀ entry, found = some entry →
        ∃ timestamp, (cursor.advance query readAt versions).2 = on entry timestamp := by
  induction versions generalizing cursor with
  | nil =>
      subst first
      simp [advance, Snapshot.visibleAmong]
  | cons head rest ih =>
      rcases List.pairwise_cons.1 ascending with ⟨_, restAscending⟩
      have headFirst := Versions.cell_not_lt_of_mem ascending
      have headRow := rowFirst head List.mem_cons_self
      have restFirst : ∀ entry ∈ rest, ¬ entry.1.cell.row < cursor.row :=
        fun entry member => rowFirst entry (List.mem_cons_of_mem _ member)
      obtain ⟨version, value⟩ := head
      by_cases sameRow : version.cell.row = cursor.row
      · by_cases skipped : readAt < version.timestamp ∨ cursor.settled = some version.cell
        · simp only [Snapshot.visibleAmong, skipped, if_true] at first
          simp only [advance, sameRow, ne_eq, not_true, if_false, skipped, if_true]
          exact ih { cursor with lastMet := some version } restAscending restFirst first
        · simp only [Snapshot.visibleAmong, skipped, if_false] at first
          simp only [advance, sameRow, ne_eq, not_true, if_false, skipped]
          have passed := ih { cursor with
            lastMet := some version, settled := some version.cell } restAscending restFirst
          cases value with
          | none => exact passed first
          | some value =>
              cases selected : query.selects version.cell.column with
              | false =>
                  simp only [List.find?_cons, sameRow, selected, decide_true, Bool.and_false]
                    at first
                  simpa [selected] using passed first
              | true =>
                  simp only [List.find?_cons, sameRow, selected, decide_true, Bool.and_true]
                    at first
                  subst first
                  refine ⟨by simp, ?_⟩
                  rintro entry ⟨⟩
                  refine ⟨version.timestamp, ?_⟩
                  simp [on, Entry.cell, ← sameRow]
      · -- The rows ascend, so the row of the cursor has ended.
        have later : cursor.row < version.cell.row :=
          StrictTotalOrder.lt_of_not_lt headRow sameRow
        have ended : ∀ entry ∈
            Snapshot.visibleAmong readAt cursor.settled ((version, value) :: rest),
            ¬ (decide (entry.row = cursor.row) && query.selects entry.column) = true := by
          intro entry member chosen
          rcases Snapshot.exists_version_of_mem_visibleAmong member with ⟨timestamp, stored⟩
          simp only [Bool.and_eq_true, decide_eq_true_eq] at chosen
          refine headFirst _ stored (Or.inl ?_)
          show entry.row < version.cell.row
          rw [chosen.1]
          exact later
        rw [List.find?_eq_none.2 ended] at first
        subst first
        simp [advance, sameRow]

variable {engine : Engine} {snapshot : Snapshot} {cursor : ColumnCursor} {readAt : Timestamp}

theorem row_not_lt_of_mem_seek (standing : cursor.Standing) :
    ∀ entry ∈ engine.versions.entriesFrom cursor.seekStart, ¬ entry.1.cell.row < cursor.row := by
  intro entry member
  rw [OrderedMap.entriesFrom_eq_filter] at member
  have admitted := (List.mem_filter.1 member).2
  rcases standing with ⟨start, _⟩ | ⟨cell, timestamp, met, _, sameRow⟩
  · simpa [seekStart, start, Bound.admitsFromBelow, VersionAddress.lt_floor_iff] using admitted
  · simp only [seekStart, met, Bound.admitsFromBelow, decide_eq_true_eq] at admitted
    rw [← sameRow]
    exact VersionAddress.row_not_lt_of_lt admitted

theorem visibleAmong_entriesFrom_excluded (cell : CellAddress) (timestamp : Timestamp) :
    Snapshot.visibleAmong readAt (some cell)
        (engine.versions.entriesFrom (.excluded ⟨cell, timestamp⟩)) =
      (engine.visibleAt readAt).filter fun entry => decide (cell < entry.cell) := by
  rw [OrderedMap.entriesFrom_eq_filter]
  apply Snapshot.visibleAmong_filter engine.versions.ascending
    (Bound.excluded ⟨cell, timestamp⟩).admitsFromBelow (fun other => decide (cell < other))
  · rintro settled ⟨⟩ version after
    simp only [Bound.admitsFromBelow, decide_eq_true_eq] at after
    exact VersionAddress.cell_not_lt_of_lt after
  · rintro settled ⟨⟩
    simp [StrictTotalOrder.irrefl]
  · intro version unsettled
    have different : cell ≠ version.cell := fun same => unsettled (congrArg some same)
    simp [Bound.admitsFromBelow, VersionAddress.lt_iff, different]

theorem find?_visibleAmong_seek (standing : cursor.Standing) (query : Query)
    (readAt : Timestamp) (engine : Engine) :
    (Snapshot.visibleAmong readAt cursor.settled
        (engine.versions.entriesFrom cursor.seekStart)).find? (fun entry =>
      decide (entry.row = cursor.row) && query.selects entry.column) =
        (cursor.remaining query (engine.visibleAt readAt)).head? := by
  rw [remaining, List.head?_filter]
  rcases standing with ⟨start, unsettled⟩ | ⟨cell, timestamp, met, settled, _⟩
  · have seek : cursor.seekStart = Snapshot.seekStart (.included cursor.row) := by
      simp [seekStart, start, Snapshot.seekStart]
    rw [seek, unsettled, Snapshot.visibleAmong_entriesFrom, List.find?_filter]
    congr 1
    funext entry
    by_cases sameRow : entry.row = cursor.row
    · simp [sameRow, Bound.admitsFromBelow, isPast, StrictTotalOrder.irrefl]
    · simp [sameRow]
  · have seek : cursor.seekStart = .excluded ⟨cell, timestamp⟩ := by simp [seekStart, met]
    rw [seek, settled, visibleAmong_entriesFrom_excluded, List.find?_filter]
    congr 1
    funext entry
    simp [isPast, Bool.and_comm]

theorem remaining_on {query : Query} {visible : List Entry} (ascending : Entry.Ascending visible)
    {entry : Entry} {rest : List Entry} (left : cursor.remaining query visible = entry :: rest)
    (timestamp : Timestamp) : (on entry timestamp).remaining query visible = rest := by
  have leftAscending : Entry.Ascending (entry :: rest) := left ▸ remaining_ascending ascending
  rcases List.pairwise_cons.1 leftAscending with ⟨entryFirst, restAscending⟩
  have kept (other : Entry) : other ∈ cursor.remaining query visible ↔ _ := mem_remaining_iff
  rw [left] at kept
  rcases (kept entry).1 List.mem_cons_self with ⟨_, sameRow, _, past⟩
  refine (remaining_ascending ascending).eq_of_mem_iff restAscending ?_
  intro other
  rw [mem_remaining_iff]
  simp only [on, isPast, decide_eq_true_eq]
  constructor
  · rintro ⟨member, otherRow, selected, after⟩
    have otherPast : isPast cursor.settled other.cell = true := by
      cases settled : cursor.settled with
      | none => rfl
      | some cell =>
          simp only [settled, isPast, decide_eq_true_eq] at past ⊢
          exact StrictTotalOrder.trans past after
    have found := (kept other).2 ⟨member, otherRow.trans sameRow, selected, otherPast⟩
    rcases List.mem_cons.1 found with rfl | found
    · exact absurd after (StrictTotalOrder.irrefl _)
    · exact found
  · intro found
    rcases (kept other).1 (List.mem_cons_of_mem _ found) with ⟨member, otherRow, selected, _⟩
    exact ⟨member, otherRow.trans sameRow.symm, selected, entryFirst other found⟩

theorem fetchColumn_of_offline (offline : engine.available = false) :
    cursor.fetchColumn engine snapshot = (.error Engine.offline, cursor) := by
  simp [fetchColumn, offline]

/-- A fetch yields the first of the entries that remain. -/
theorem fetchColumn_spec (available : engine.available = true) (standing : cursor.Standing)
    {found : Option Entry}
    (first : (cursor.remaining snapshot.query (engine.visibleAt snapshot.readAt)).head? = found) :
    (cursor.fetchColumn engine snapshot).1 =
        .ok (found.map fun entry => (entry.column, entry.value)) ∧
      ∀ entry, found = some entry →
        ∃ timestamp, (cursor.fetchColumn engine snapshot).2 = on entry timestamp := by
  rw [← find?_visibleAmong_seek standing] at first
  have walked := advance_spec { cursor with lastMet := none }
    (engine.entriesFrom_ascending cursor.seekStart) (row_not_lt_of_mem_seek standing) first
  simpa [fetchColumn, available] using walked

theorem fetchColumn_of_remaining_nil (available : engine.available = true)
    (standing : cursor.Standing)
    (noneLeft : cursor.remaining snapshot.query (engine.visibleAt snapshot.readAt) = []) :
    (cursor.fetchColumn engine snapshot).1 = .ok none :=
  (fetchColumn_spec available standing (congrArg List.head? noneLeft)).1

theorem fetchColumn_of_remaining_cons {entry : Entry} {rest : List Entry}
    (available : engine.available = true) (standing : cursor.Standing)
    (left : cursor.remaining snapshot.query (engine.visibleAt snapshot.readAt) = entry :: rest) :
    ∃ timestamp, cursor.fetchColumn engine snapshot =
      (.ok (some (entry.column, entry.value)), on entry timestamp) := by
  rcases fetchColumn_spec available standing (congrArg List.head? left) with ⟨answer, next⟩
  rcases next entry rfl with ⟨timestamp, next⟩
  exact ⟨timestamp, Prod.ext answer next⟩

end ColumnCursor

namespace Snapshot

variable {snapshot : Snapshot} {visible : List Entry} {entry : Entry} {rest : List Entry}

theorem mem_remaining_iff :
    entry ∈ snapshot.remaining visible ↔
      snapshot.atEnd = false ∧ entry ∈ visible ∧
        snapshot.continuation.admitsFromBelow entry.row = true ∧
          snapshot.query.rows.belowUpper entry.row = true ∧
            snapshot.query.selects entry.column = true := by
  cases atEnd : snapshot.atEnd <;> simp [remaining, atEnd, Query.reaches]

theorem remaining_ascending (ascending : Entry.Ascending visible) :
    Entry.Ascending (snapshot.remaining visible) := by
  unfold remaining
  split
  · exact List.Pairwise.nil
  · exact ascending.filter _

@[simp]
theorem remaining_ended : snapshot.ended.remaining visible = [] := rfl

/-- What remains of a snapshot is what the next row holds and what remains past that row. -/
theorem remaining_eq_append (ascending : Entry.Ascending visible)
    (left : snapshot.remaining visible = entry :: rest) :
    snapshot.remaining visible =
      (ColumnCursor.atStart entry.row).remaining snapshot.query visible ++
        (snapshot.past entry.row).remaining visible := by
  have leftAscending : Entry.Ascending (entry :: rest) := left ▸ remaining_ascending ascending
  have kept (other : Entry) : other ∈ snapshot.remaining visible ↔ _ := mem_remaining_iff
  have inRow (other : Entry) :
      other ∈ (ColumnCursor.atStart entry.row).remaining snapshot.query visible ↔ _ :=
    ColumnCursor.mem_remaining_iff
  have pastRow (other : Entry) : other ∈ (snapshot.past entry.row).remaining visible ↔ _ :=
    mem_remaining_iff
  simp only [ColumnCursor.atStart, ColumnCursor.isPast, and_true] at inRow
  simp only [past, Bound.admitsFromBelow, decide_eq_true_eq] at pastRow
  rcases (kept entry).1 (left ▸ List.mem_cons_self) with ⟨atEnd, _, admitted, below, _⟩
  have rowsFirst : ∀ other ∈ snapshot.remaining visible, ¬ other.row < entry.row := by
    rw [left]
    exact leftAscending.row_not_lt_of_mem
  refine (remaining_ascending ascending).eq_of_mem_iff ?_ ?_
  · refine List.pairwise_append.2
      ⟨ColumnCursor.remaining_ascending ascending, remaining_ascending ascending, ?_⟩
    intro first firstMember second secondMember
    refine Entry.cell_lt_of_row_lt ?_
    rw [((inRow first).1 firstMember).2.1]
    exact ((pastRow second).1 secondMember).2.2.1
  · intro other
    rw [List.mem_append]
    constructor
    · intro member
      rcases (kept other).1 member with ⟨_, stored, _, otherBelow, selected⟩
      by_cases sameRow : other.row = entry.row
      · exact Or.inl ((inRow other).2 ⟨stored, sameRow, selected⟩)
      · have after := StrictTotalOrder.lt_of_not_lt (rowsFirst other member) sameRow
        exact Or.inr ((pastRow other).2 ⟨atEnd, stored, after, otherBelow, selected⟩)
    · rintro (member | member)
      · rcases (inRow other).1 member with ⟨stored, sameRow, selected⟩
        exact (kept other).2 ⟨atEnd, stored, sameRow ▸ admitted, sameRow ▸ below, selected⟩
      · rcases (pastRow other).1 member with ⟨_, stored, after, otherBelow, selected⟩
        exact (kept other).2
          ⟨atEnd, stored, Bound.admitsFromBelow_of_lt admitted after, otherBelow, selected⟩

end Snapshot

namespace View

variable {view : View} {cursor : ColumnCursor} {engine : Engine} {entry : Entry} {rest : List Entry}

theorem fetchRow_of_offline (offline : engine.available = false) :
    view.fetchRow engine = (.error Engine.offline, view) := by
  simp [fetchRow, Snapshot.fetchRow_of_offline offline]

theorem fetchRow_of_remaining_nil (available : engine.available = true)
    (noneLeft : view.snapshot.remaining (engine.visibleAt view.snapshot.readAt) = []) :
    view.fetchRow engine = (.ok none, ⟨view.snapshot.ended, none⟩) := by
  simp [fetchRow, Snapshot.fetchRow_of_remaining_nil available noneLeft]

theorem fetchRow_of_remaining_cons (available : engine.available = true)
    (left : view.snapshot.remaining (engine.visibleAt view.snapshot.readAt) = entry :: rest) :
    view.fetchRow engine =
      (.ok (some entry.row), ⟨view.snapshot.past entry.row, some (.atStart entry.row)⟩) := by
  simp [fetchRow, Snapshot.fetchRow_of_remaining_cons available left]

theorem fetchColumn_of_offline (offline : engine.available = false)
    (here : view.cursor = some cursor) :
    view.fetchColumn engine = (.error Engine.offline, view) := by
  simp only [fetchColumn, here, ColumnCursor.fetchColumn_of_offline offline]
  rw [← here]

theorem fetchColumn_of_remaining_nil (available : engine.available = true)
    (here : view.cursor = some cursor) (standing : cursor.Standing)
    (noneLeft :
      cursor.remaining view.snapshot.query (engine.visibleAt view.snapshot.readAt) = []) :
    ∃ next, view.fetchColumn engine = (.ok none, { view with cursor := some next }) := by
  have fetched := ColumnCursor.fetchColumn_of_remaining_nil available standing noneLeft
  exact ⟨(cursor.fetchColumn engine view.snapshot).2, by simp [fetchColumn, here, fetched]⟩

theorem fetchColumn_of_remaining_cons (available : engine.available = true)
    (here : view.cursor = some cursor) (standing : cursor.Standing)
    (left : cursor.remaining view.snapshot.query (engine.visibleAt view.snapshot.readAt) =
      entry :: rest) :
    ∃ timestamp, view.fetchColumn engine = (.ok (some (entry.column, entry.value)),
      { view with cursor := some (.on entry timestamp) }) := by
  rcases ColumnCursor.fetchColumn_of_remaining_cons available standing left with
    ⟨timestamp, fetched⟩
  exact ⟨timestamp, by simp [fetchColumn, here, fetched]⟩

end View

end DataflowOps
