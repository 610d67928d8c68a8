import DataflowOps.Proofs.Fetches

/-!
# The end of a row

A column cursor that finds nothing more keeps two things: the last version that it met, used up by
the next fetch, and the last cell of the row that its reader is shown. Once the former is used up
the cursor seeks from the start of the row again, where only the versions of that last cell are
skipped. So it stays at the end if the row shows no other cell, and otherwise hands out the row
anew.
-/

namespace DataflowOps

namespace Versions

theorem getLast?_cons_eq_or (head : VersionAddress × Option Bytes) (rest : Versions) :
    (head :: rest).getLast? = rest.getLast?.or (some head) := by
  rw [List.getLast?_cons]
  cases rest.getLast? <;> rfl

theorem not_lt_of_getLast? {versions : Versions} {last : VersionAddress × Option Bytes}
    (ascending : versions.Ascending) (ends : versions.getLast? = some last) :
    ∀ entry ∈ versions, ¬ last.1 < entry.1 := by
  intro entry member
  rcases List.getLast?_eq_some_iff.1 ends with ⟨earlier, rfl⟩
  rcases List.mem_append.1 member with member | member
  · apply StrictTotalOrder.asymm
    exact (List.pairwise_append.1 ascending).2.2 entry member last List.mem_cons_self
  · rw [List.mem_singleton.1 member]
    exact StrictTotalOrder.irrefl _

/-- Whether versions show more than one cell of a row. -/
def ShowSeveral (shown : Versions) (row : Bytes) : Prop :=
  ∃ left ∈ shown, ∃ right ∈ shown,
    left.1.cell.row = row ∧ right.1.cell.row = row ∧ left.1.cell ≠ right.1.cell

instance (shown : Versions) (row : Bytes) : Decidable (shown.ShowSeveral row) :=
  inferInstanceAs (Decidable (∃ left ∈ shown, ∃ right ∈ shown, _))

end Versions

namespace ColumnCursor

section Walk

variable {query : Query} {readAt : Timestamp} {row : Bytes} {met : Option VersionAddress}
  {settled : Option CellAddress} {versions : Versions}

/-- The walk for a column does not leave the row. -/
theorem advance_filter_row (ascending : versions.Ascending)
    (rowFirst : ∀ entry ∈ versions, ¬ entry.1.cell.row < row) :
    advance query readAt ⟨row, met, settled⟩ versions =
      advance query readAt ⟨row, met, settled⟩
        (versions.filter fun entry => entry.1.cell.row = row) := by
  induction versions generalizing met settled with
  | nil => rfl
  | cons head rest ih =>
      rcases List.pairwise_cons.1 ascending with ⟨_, restAscending⟩
      have restFirst : ∀ entry ∈ rest, ¬ entry.1.cell.row < row :=
        fun entry member => rowFirst entry (List.mem_cons_of_mem _ member)
      by_cases sameRow : head.1.cell.row = row
      · simp only [List.filter_cons, sameRow, decide_true, if_true, advance, ne_eq, not_true,
          if_false]
        split
        · exact ih restAscending restFirst
        · split
          · split
            · rfl
            · exact ih restAscending restFirst
          · exact ih restAscending restFirst
      · have later : row < head.1.cell.row :=
          StrictTotalOrder.lt_of_not_lt (rowFirst head List.mem_cons_self) sameRow
        have outside : (head :: rest).filter (fun entry => entry.1.cell.row = row) = [] := by
          rw [List.filter_eq_nil_iff]
          intro entry member
          simp only [decide_eq_true_eq]
          intro inRow
          refine Versions.cell_not_lt_of_mem ascending entry member (Or.inl ?_)
          show entry.1.cell.row < head.1.cell.row
          rw [inRow]
          exact later
        rw [outside]
        simp [advance, sameRow]

theorem advance_cons_of_fst_eq_none {head : VersionAddress × Option Bytes} {rest : Versions}
    (headRow : head.1.cell.row = row)
    (nothing : (advance query readAt ⟨row, met, settled⟩ (head :: rest)).1 = none) :
    advance query readAt ⟨row, met, settled⟩ (head :: rest) =
      advance query readAt ⟨row, some head.1,
        if Versions.shows readAt head.1 then some head.1.cell else settled⟩ rest := by
  obtain ⟨version, value⟩ := head
  change version.cell.row = row at headRow
  simp only [advance, headRow, ne_eq, not_true, if_false] at nothing ⊢
  by_cases hidden : readAt < version.timestamp
  · simp [Versions.shows, hidden]
  · by_cases repeated : settled = some version.cell
    · simp [Versions.shows, repeated]
    · simp only [hidden, repeated, or_self, if_false] at nothing ⊢
      cases value with
      | none => simp [Versions.shows, hidden]
      | some value =>
          cases selected : query.selects version.cell.column with
          | false => simp [Versions.shows, hidden]
          | true => simp [selected] at nothing

/-- A walk through versions of the row that finds nothing ends on the last of them, with the last
cell that the reader is shown. -/
theorem advance_of_fst_eq_none (inRow : ∀ entry ∈ versions, entry.1.cell.row = row)
    (nothing : (advance query readAt ⟨row, met, settled⟩ versions).1 = none) :
    (advance query readAt ⟨row, met, settled⟩ versions).2 =
      ⟨row, (versions.getLast?.map Prod.fst).or met,
        ((versions.filter fun entry => Versions.shows readAt entry.1).getLast?.map
          fun entry => entry.1.cell).or settled⟩ := by
  induction versions generalizing met settled with
  | nil => rfl
  | cons head rest ih =>
      have step := advance_cons_of_fst_eq_none (inRow head List.mem_cons_self) nothing
      rw [step] at nothing ⊢
      rw [ih (fun entry member => inRow entry (List.mem_cons_of_mem _ member)) nothing]
      cases shown : Versions.shows readAt head.1 <;>
        simp [shown, Versions.getLast?_cons_eq_or]

/-- A walk past versions whose cell is settled, or which the reader is not shown, finds nothing. -/
theorem advance_of_settled (passed : ∀ entry ∈ versions,
      Versions.shows readAt entry.1 = true → settled = some entry.1.cell) :
    (advance query readAt ⟨row, met, settled⟩ versions).1 = none := by
  induction versions generalizing met with
  | nil => rfl
  | cons head rest ih =>
      have skipped : readAt < head.1.timestamp ∨ settled = some head.1.cell := by
        by_cases hidden : readAt < head.1.timestamp
        · exact Or.inl hidden
        · apply Or.inr
          apply passed head List.mem_cons_self
          simp [Versions.shows, hidden]
      simp only [advance, skipped, if_true]
      split
      · rfl
      · exact ih fun entry member => passed entry (List.mem_cons_of_mem _ member)

/-- What is settled makes no difference if the first version shown is of another cell. -/
theorem advance_of_head?_ne {last : CellAddress} {first : VersionAddress × Option Bytes}
    (starts : (versions.filter fun entry => Versions.shows readAt entry.1).head? = some first)
    (inRow : ∀ entry ∈ versions, entry.1.cell.row = row) (different : first.1.cell ≠ last) :
    advance query readAt ⟨row, met, some last⟩ versions =
      advance query readAt ⟨row, met, none⟩ versions := by
  induction versions generalizing met with
  | nil => simp at starts
  | cons head rest ih =>
      have headRow := inRow head List.mem_cons_self
      by_cases hidden : readAt < head.1.timestamp
      · simp only [advance, headRow, ne_eq, not_true, if_false, hidden, true_or, if_true]
        apply ih
        · simpa [Versions.shows, hidden] using starts
        · intro entry member
          exact inRow entry (List.mem_cons_of_mem _ member)
      · have here : head = first := by simpa [Versions.shows, hidden] using starts
        subst here
        simp [advance, headRow, hidden, Ne.symm different]

end Walk

section Ends

variable {engine : Engine} {snapshot : Snapshot} {cursor : ColumnCursor} {shown : Versions}

/-- The versions of the row that the next fetch may meet. -/
def ahead (engine : Engine) (cursor : ColumnCursor) : Versions :=
  engine.versions.entries.filter fun entry =>
    decide (entry.1.cell.row = cursor.row) && cursor.seekStart.admitsFromBelow entry.1

theorem mem_ahead_iff {entry : VersionAddress × Option Bytes} :
    entry ∈ cursor.ahead engine ↔ entry ∈ engine.versions.entries ∧
      entry.1.cell.row = cursor.row ∧ ∀ met, cursor.lastMet = some met → met < entry.1 := by
  rw [ahead, List.mem_filter, Bool.and_eq_true, decide_eq_true_eq]
  apply and_congr_right
  intro _
  apply and_congr_right
  intro inRow
  cases met : cursor.lastMet with
  | none =>
      simp [seekStart, met, Bound.admitsFromBelow, VersionAddress.lt_floor_iff, inRow,
        StrictTotalOrder.irrefl]
  | some version => simp [seekStart, met, Bound.admitsFromBelow]

theorem ahead_ascending : Versions.Ascending (cursor.ahead engine) :=
  engine.versions.ascending.filter _

theorem row_eq_of_mem_ahead : ∀ entry ∈ cursor.ahead engine, entry.1.cell.row = cursor.row :=
  fun _ member => (mem_ahead_iff.1 member).2.1

/-- Whether the version met last is one of the cursor's row. -/
def MetInRow (cursor : ColumnCursor) : Prop :=
  ∀ met, cursor.lastMet = some met → met.cell.row = cursor.row

/-- The walk of one fetch, through the versions ahead. -/
def walk (engine : Engine) (snapshot : Snapshot) (cursor : ColumnCursor) :
    Option (Column × Bytes) × ColumnCursor :=
  advance snapshot.query snapshot.readAt ⟨cursor.row, none, cursor.settled⟩ (cursor.ahead engine)

theorem fetchColumn_eq_walk (snapshot : Snapshot) (available : engine.available = true)
    (metInRow : cursor.MetInRow) :
    cursor.fetchColumn engine snapshot =
      (.ok (cursor.walk engine snapshot).1, (cursor.walk engine snapshot).2) := by
  have rowFirst : ∀ entry ∈ engine.versions.entriesFrom cursor.seekStart,
      ¬ entry.1.cell.row < cursor.row := by
    intro entry member
    rw [OrderedMap.entriesFrom_eq_filter] at member
    have admitted := (List.mem_filter.1 member).2
    cases met : cursor.lastMet with
    | none =>
        simpa [seekStart, met, Bound.admitsFromBelow, VersionAddress.lt_floor_iff] using admitted
    | some version =>
        simp only [seekStart, met, Bound.admitsFromBelow, decide_eq_true_eq] at admitted
        rw [← metInRow version met]
        exact VersionAddress.row_not_lt_of_lt admitted
  have inRow : (engine.versions.entriesFrom cursor.seekStart).filter
      (fun entry => entry.1.cell.row = cursor.row) = cursor.ahead engine := by
    rw [OrderedMap.entriesFrom_eq_filter, List.filter_filter]
    rfl
  simp only [fetchColumn, available, Bool.not_true, Bool.false_eq_true, if_false]
  rw [advance_filter_row (engine.entriesFrom_ascending _) rowFirst, inRow]
  rfl

/-- What a cursor has behind it: if the version met last is not before a version that its reader is
shown, then neither is the cell that is settled, and that cell is one of those shown. -/
structure Located (shown : Versions) (cursor : ColumnCursor) : Prop where
  metInRow : cursor.MetInRow
  settledInRow : ∀ cell, cursor.settled = some cell →
    cell.row = cursor.row ∧ ∃ entry ∈ shown, entry.1.cell = cell
  passed : ∀ entry ∈ shown, entry.1.cell.row = cursor.row →
    ∀ met, cursor.lastMet = some met → ¬ met < entry.1 →
      ∃ cell, cursor.settled = some cell ∧ ¬ cell < entry.1.cell

theorem located_atStart (shown : Versions) (row : Bytes) : (atStart row).Located shown := by
  constructor <;> simp [MetInRow, atStart]

/-- The end of the row: the last cell shown is settled, and no version shown lies ahead unless the
cursor starts over. -/
structure Ended (shown : Versions) (cursor : ColumnCursor) : Prop extends
    cursor.Located shown where
  settledLast : ∃ last, cursor.settled = some last ∧
    ∀ entry ∈ shown, entry.1.cell.row = cursor.row → ¬ last < entry.1.cell
  beyond : ∀ met, cursor.lastMet = some met →
    ∀ entry ∈ shown, entry.1.cell.row = cursor.row → ¬ met < entry.1

/-- Whether a fetch that resumes at the cursor meets no version any more. -/
def Spent (engine : Engine) (cursor : ColumnCursor) : Prop :=
  ∀ met, cursor.lastMet = some met → cursor.ahead engine = []

theorem mem_shownAt_and_ahead_iff {readAt : Timestamp} {entry : VersionAddress × Option Bytes} :
    entry ∈ (cursor.ahead engine).filter (fun entry => Versions.shows readAt entry.1) ↔
      entry ∈ engine.shownAt readAt ∧ entry.1.cell.row = cursor.row ∧
        ∀ met, cursor.lastMet = some met → met < entry.1 := by
  rw [List.mem_filter, mem_ahead_iff, Engine.shownAt, List.mem_filter]
  constructor
  · rintro ⟨⟨stored, rest⟩, shows⟩
    exact ⟨⟨stored, shows⟩, rest⟩
  · rintro ⟨⟨stored, shows⟩, rest⟩
    exact ⟨⟨stored, rest⟩, shows⟩

theorem walk_of_fst_eq_none (nothing : (cursor.walk engine snapshot).1 = none) :
    (cursor.walk engine snapshot).2 =
      ⟨cursor.row, (cursor.ahead engine).getLast?.map Prod.fst,
        (((cursor.ahead engine).filter fun entry =>
          Versions.shows snapshot.readAt entry.1).getLast?.map
            fun entry => entry.1.cell).or cursor.settled⟩ := by
  have walked := advance_of_fst_eq_none row_eq_of_mem_ahead nothing
  rw [Option.or_none] at walked
  exact walked

/-- A version that is not before any of those ahead is not before any of the row. -/
theorem not_lt_of_mem_ahead {last entry : VersionAddress × Option Bytes}
    (lastAhead : last ∈ cursor.ahead engine) (stored : entry ∈ engine.versions.entries)
    (inRow : entry.1.cell.row = cursor.row)
    (ordered : entry ∈ cursor.ahead engine → ¬ last.1 < entry.1) : ¬ last.1 < entry.1 := by
  intro after
  refine ordered (mem_ahead_iff.2 ⟨stored, inRow, ?_⟩) after
  intro met same
  exact StrictTotalOrder.trans ((mem_ahead_iff.1 lastAhead).2.2 met same) after

/-- The last cell shown ahead, or else the one that is settled, is the last one shown in the row. -/
theorem Located.exists_last (located : cursor.Located (engine.shownAt snapshot.readAt))
    (inhabited : ∃ entry ∈ engine.shownAt snapshot.readAt, entry.1.cell.row = cursor.row) :
    ∃ last, (((cursor.ahead engine).filter fun entry =>
        Versions.shows snapshot.readAt entry.1).getLast?.map fun entry => entry.1.cell).or
          cursor.settled = some last ∧
      (last.row = cursor.row ∧ ∃ entry ∈ engine.shownAt snapshot.readAt, entry.1.cell = last) ∧
      ∀ entry ∈ engine.shownAt snapshot.readAt, entry.1.cell.row = cursor.row →
        ¬ last < entry.1.cell := by
  cases found : ((cursor.ahead engine).filter fun entry =>
      Versions.shows snapshot.readAt entry.1).getLast? with
  | none =>
      rw [List.getLast?_eq_none_iff] at found
      have behind : ∀ entry ∈ engine.shownAt snapshot.readAt, entry.1.cell.row = cursor.row →
          ∃ cell, cursor.settled = some cell ∧ ¬ cell < entry.1.cell := by
        intro entry shown inRow
        have notAhead := List.eq_nil_iff_forall_not_mem.1 found entry
        simp only [mem_shownAt_and_ahead_iff, shown, inRow, true_and, Classical.not_forall]
          at notAhead
        rcases notAhead with ⟨met, same, notBefore⟩
        exact located.passed entry shown inRow met same notBefore
      rcases inhabited with ⟨entry, shown, inRow⟩
      rcases behind entry shown inRow with ⟨last, settled, _⟩
      refine ⟨last, settled, located.settledInRow last settled, ?_⟩
      intro other otherShown otherInRow
      rcases behind other otherShown otherInRow with ⟨cell, same, notBefore⟩
      rw [settled] at same
      cases same
      exact notBefore
  | some last =>
      have ascending : Versions.Ascending ((cursor.ahead engine).filter fun entry =>
          Versions.shows snapshot.readAt entry.1) := ahead_ascending.filter _
      have member := List.mem_of_getLast? found
      rcases mem_shownAt_and_ahead_iff.1 member with ⟨lastShown, lastInRow, _⟩
      refine ⟨last.1.cell, rfl, ⟨lastInRow, last, lastShown, rfl⟩, ?_⟩
      intro entry shown inRow before
      refine not_lt_of_mem_ahead (List.mem_filter.1 member).1 (List.mem_filter.1 shown).1 inRow ?_
        (Or.inl before)
      intro entryAhead
      apply Versions.not_lt_of_getLast? ascending found entry
      exact List.mem_filter.2 ⟨entryAhead, (List.mem_filter.1 shown).2⟩

/-- After a fetch that finds nothing the row has ended. -/
theorem Located.ended_walk (located : cursor.Located (engine.shownAt snapshot.readAt))
    (inhabited : ∃ entry ∈ engine.shownAt snapshot.readAt, entry.1.cell.row = cursor.row)
    (nothing : (cursor.walk engine snapshot).1 = none) :
    (cursor.walk engine snapshot).2.row = cursor.row ∧
      (cursor.walk engine snapshot).2.Ended (engine.shownAt snapshot.readAt) ∧
        (cursor.walk engine snapshot).2.Spent engine := by
  rcases located.exists_last inhabited with ⟨last, settled, lastInRow, greatest⟩
  -- No version of the row lies past the one that the walk has met last.
  have furthest : ∀ met, (cursor.ahead engine).getLast?.map Prod.fst = some met →
      met.cell.row = cursor.row ∧ ∀ entry ∈ engine.versions.entries,
        entry.1.cell.row = cursor.row → ¬ met < entry.1 := by
    intro met same
    rcases Option.map_eq_some_iff.1 same with ⟨version, found, rfl⟩
    have member := List.mem_of_getLast? found
    refine ⟨row_eq_of_mem_ahead version member, ?_⟩
    intro entry stored inRow
    exact not_lt_of_mem_ahead member stored inRow
      (Versions.not_lt_of_getLast? ahead_ascending found entry)
  rw [walk_of_fst_eq_none nothing, settled]
  refine ⟨rfl, ?_, ?_⟩
  · constructor
    case toLocated =>
      constructor
      case metInRow => exact fun met same => (furthest met same).1
      case settledInRow =>
        rintro cell ⟨⟩
        exact lastInRow
      case passed => exact fun entry shown inRow _ _ _ => ⟨last, rfl, greatest entry shown inRow⟩
    case settledLast => exact ⟨last, rfl, greatest⟩
    case beyond =>
      intro met same entry shown inRow
      exact (furthest met same).2 entry (List.mem_filter.1 shown).1 inRow
  · intro met same
    rw [List.eq_nil_iff_forall_not_mem]
    intro entry member
    rcases mem_ahead_iff.1 member with ⟨stored, inRow, after⟩
    exact (furthest met same).2 entry stored inRow (after met same)

/-- At the end of a row nothing is found while the version met last is not used up, and never if the
row shows a single cell. -/
theorem Ended.walk_stays (ended : cursor.Ended (engine.shownAt snapshot.readAt))
    (stays : cursor.lastMet ≠ none ∨
      ¬ Versions.ShowSeveral (engine.shownAt snapshot.readAt) cursor.row) :
    (cursor.walk engine snapshot).1 = none := by
  apply advance_of_settled
  intro entry member shows
  rcases mem_shownAt_and_ahead_iff.1 (List.mem_filter.2 ⟨member, shows⟩) with
    ⟨shown, inRow, after⟩
  rcases stays with resumes | single
  · rcases Option.ne_none_iff_exists'.1 resumes with ⟨met, same⟩
    exact absurd (after met same) (ended.beyond met same entry shown inRow)
  · rcases ended.settledLast with ⟨last, settled, _⟩
    rcases ended.settledInRow last settled with ⟨lastInRow, other, otherShown, otherCell⟩
    rw [settled, Option.some.injEq]
    apply Classical.byContradiction
    intro different
    apply single
    refine ⟨other, otherShown, entry, shown, ?_, inRow, ?_⟩
    · rw [otherCell, lastInRow]
    · rw [otherCell]
      exact different

/-- At the end of a row that shows several cells, a cursor without a version to resume from finds
what it finds at the start of the row. -/
theorem Ended.walk_startsOver (ended : cursor.Ended (engine.shownAt snapshot.readAt))
    (usedUp : cursor.lastMet = none)
    (several : Versions.ShowSeveral (engine.shownAt snapshot.readAt) cursor.row) :
    cursor.walk engine snapshot = (atStart cursor.row).walk engine snapshot := by
  have sameSeek : (atStart cursor.row).seekStart = cursor.seekStart := by
    simp [atStart, seekStart, usedUp]
  have sameAhead : (atStart cursor.row).ahead engine = cursor.ahead engine := by
    rw [ahead, ahead, sameSeek]
    rfl
  rcases ended.settledLast with ⟨last, settled, greatest⟩
  rcases several with ⟨left, leftShown, right, rightShown, leftInRow, rightInRow, different⟩
  have reached : ∀ entry ∈ engine.shownAt snapshot.readAt, entry.1.cell.row = cursor.row →
      entry ∈ (cursor.ahead engine).filter fun entry =>
        Versions.shows snapshot.readAt entry.1 := by
    intro entry shown inRow
    apply mem_shownAt_and_ahead_iff.2
    simp [shown, inRow, usedUp]
  cases starts : (cursor.ahead engine).filter fun entry =>
      Versions.shows snapshot.readAt entry.1 with
  | nil =>
      have member := reached left leftShown leftInRow
      rw [starts] at member
      cases member
  | cons first rest =>
      have ascending : Versions.Ascending (first :: rest) := by
        rw [← starts]
        exact ahead_ascending.filter _
      have firstOther : first.1.cell ≠ last := by
        rintro rfl
        -- Then every cell shown in the row would be the first and the last one.
        have same : ∀ entry ∈ engine.shownAt snapshot.readAt, entry.1.cell.row = cursor.row →
            entry.1.cell = first.1.cell := by
          intro entry shown inRow
          have member := reached entry shown inRow
          rw [starts] at member
          exact StrictTotalOrder.connected (Versions.cell_not_lt_of_mem ascending entry member)
            (greatest entry shown inRow)
        exact different ((same left leftShown leftInRow).trans
          (same right rightShown rightInRow).symm)
      simp only [walk, sameAhead, settled]
      apply advance_of_head?_ne
      · rw [starts]
        rfl
      · exact row_eq_of_mem_ahead
      · exact firstOther

/-- A cursor that has found nothing in a row of several cells starts over with the next fetch, or
with the one after it, unless the store is changed meanwhile. -/
theorem Located.fetchColumn_startsOver {next : ColumnCursor}
    (located : cursor.Located (engine.shownAt snapshot.readAt))
    (available : engine.available = true)
    (nothing : cursor.fetchColumn engine snapshot = (.ok none, next))
    (several : Versions.ShowSeveral (engine.shownAt snapshot.readAt) cursor.row) :
    next.fetchColumn engine snapshot = (atStart cursor.row).fetchColumn engine snapshot ∨
      ∃ after, next.fetchColumn engine snapshot = (.ok none, after) ∧
        after.fetchColumn engine snapshot = (atStart cursor.row).fetchColumn engine snapshot := by
  have inhabited : ∃ entry ∈ engine.shownAt snapshot.readAt, entry.1.cell.row = cursor.row := by
    rcases several with ⟨entry, shown, _, _, inRow, _⟩
    exact ⟨entry, shown, inRow⟩
  have walks {other : ColumnCursor} (metInRow : other.MetInRow) :=
    fetchColumn_eq_walk snapshot available metInRow
  rw [walks located.metInRow, Prod.mk.injEq, Except.ok.injEq] at nothing
  rcases nothing with ⟨nothing, rfl⟩
  rcases located.ended_walk inhabited nothing with ⟨sameRow, ended, spent⟩
  generalize (cursor.walk engine snapshot).2 = next at sameRow ended spent ⊢
  rw [← sameRow] at several inhabited ⊢
  rw [walks ended.metInRow, walks (located_atStart [] next.row).metInRow]
  cases met : next.lastMet with
  | none =>
      rw [ended.walk_startsOver met several]
      exact Or.inl rfl
  | some version =>
      have resumes : next.lastMet ≠ none := by simp [met]
      have stays := ended.walk_stays (Or.inl resumes)
      have usedUp : (next.walk engine snapshot).2.lastMet = none := by
        rw [walk_of_fst_eq_none stays, spent version met]
        rfl
      rcases ended.toLocated.ended_walk inhabited stays with ⟨nextRow, nextEnded, _⟩
      rw [← nextRow] at several
      refine Or.inr ⟨_, by rw [stays], ?_⟩
      rw [walks nextEnded.metInRow, nextEnded.walk_startsOver usedUp several, nextRow]

end Ends

end ColumnCursor

end DataflowOps
