import DataflowOps.Proofs.Isolation
import DataflowOps.Proofs.RowEnd

/-!
# The columns of a row

The columns of a row are handed out in ascending order and then the end of the row is reported. This
file follows the calls for them, among anything that other clients do, through the phases that the
sequence goes through. What comes after the end depends on the row: if its reader is shown the
versions of one cell only then the end is reported for ever, and otherwise the whole row is handed
out again. So a column sequence stays ended exactly for the rows of a single cell.
-/

namespace DataflowOps

/-- How far the columns of a row have been read: what is left of them, or that the end has been
reported. -/
inductive RowPhase where
  | within (left : List Entry)
  | ended

namespace RowPhase

def left : RowPhase → List Entry
  | within left => left
  | ended => []

/-- One answer to a call for a column of a row that holds some entries. -/
inductive Step (held : List Entry) (again : Prop) :
    RowPhase → Option (Column × Bytes) → RowPhase → Prop where
  | column (entry : Entry) (rest : List Entry) :
      Step held again (.within (entry :: rest)) (some (entry.column, entry.value)) (.within rest)
  | finish {phase : RowPhase} (nothingLeft : phase.left = []) :
      Step held again phase none .ended
  | startOver {answer : Option (Column × Bytes)} {next : RowPhase} (allowed : again)
      (step : Step held again (.within held) answer next) : Step held again .ended answer next

/-- The answers to a number of calls. -/
inductive Steps (held : List Entry) (again : Prop) :
    RowPhase → List (Option (Column × Bytes)) → RowPhase → Prop where
  | nil (phase : RowPhase) : Steps held again phase [] phase
  | cons {phase next last : RowPhase} {answer : Option (Column × Bytes)}
      {later : List (Option (Column × Bytes))} (step : Step held again phase answer next)
      (steps : Steps held again next later last) : Steps held again phase (answer :: later) last

end RowPhase

/-- The columns ascend strictly, and after the end has been reported there is nothing more. -/
structure ForwardOnly (answers : List (Option (Column × Bytes))) : Prop where
  ascending : (answers.filterMap id).Pairwise fun earlier later => earlier.1 < later.1
  staysEnded : answers.Pairwise fun earlier later => earlier = none → later = none

instance (answers : List (Option (Column × Bytes))) : Decidable (ForwardOnly answers) :=
  decidable_of_iff (_ ∧ _) ⟨fun both => ⟨both.1, both.2⟩, fun forward => ⟨forward.1, forward.2⟩⟩

theorem ForwardOnly.none_cons {answers : List (Option (Column × Bytes))}
    (nothing : ∀ found, some found ∉ answers) : ForwardOnly (none :: answers) := by
  have ended : ∀ answer ∈ answers, answer = none := by
    intro answer member
    cases answer with
    | none => rfl
    | some found => exact absurd member (nothing found)
  have noColumns : (none :: answers).filterMap id = [] := by
    simpa [List.filterMap_eq_nil_iff] using ended
  constructor
  · rw [noColumns]
    exact List.Pairwise.nil
  · refine List.pairwise_cons.2 ⟨fun later member _ => ended later member, ?_⟩
    apply List.pairwise_of_forall_mem_list
    intro earlier _ later member _
    exact ended later member

theorem Entry.column_lt_of_cell_lt {left right : Entry} (sameRow : left.row = right.row)
    (before : left.cell < right.cell) : left.column < right.column := by
  rcases CellAddress.lt_iff.1 before with rowBefore | ⟨_, columnBefore⟩
  · exact absurd sameRow (StrictTotalOrder.ne_of_lt rowBefore)
  · exact columnBefore

namespace RowPhase

variable {held : List Entry} {again : Prop} {row : Bytes} {phase last : RowPhase}
  {answers : List (Option (Column × Bytes))}

/-- The answers about a row that is not handed out again are forward-only. -/
theorem Steps.forwardOnly (steps : Steps held again phase answers last) (once : ¬ again)
    (ascending : Entry.Ascending phase.left) (inRow : ∀ entry ∈ phase.left, entry.row = row) :
    ForwardOnly answers ∧ ∀ found, some found ∈ answers →
      ∃ entry ∈ phase.left, found = (entry.column, entry.value) := by
  induction steps with
  | nil phase => exact ⟨⟨List.Pairwise.nil, List.Pairwise.nil⟩, by simp⟩
  | cons step steps ih =>
      cases step with
      | column entry rest =>
          rcases List.pairwise_cons.1 ascending with ⟨entryFirst, restAscending⟩
          rcases ih restAscending (fun other member => inRow other (List.mem_cons_of_mem _ member))
            with ⟨forward, found⟩
          refine ⟨⟨?_, ?_⟩, ?_⟩
          · refine List.pairwise_cons.2 ⟨?_, forward.ascending⟩
            intro later member
            rcases List.mem_filterMap.1 member with ⟨answer, answered, same⟩
            cases same
            rcases found later answered with ⟨other, otherMember, rfl⟩
            apply Entry.column_lt_of_cell_lt
            · rw [inRow entry List.mem_cons_self, inRow other (List.mem_cons_of_mem _ otherMember)]
            · exact entryFirst other otherMember
          · refine List.pairwise_cons.2 ⟨?_, forward.staysEnded⟩
            intro later _ ended
            cases ended
          · intro later member
            rcases List.mem_cons.1 member with same | member
            · exact ⟨entry, List.mem_cons_self, Option.some.inj same⟩
            · rcases found later member with ⟨other, otherMember, same⟩
              exact ⟨other, List.mem_cons_of_mem _ otherMember, same⟩
      | finish nothingLeft =>
          rcases ih List.Pairwise.nil (by simp [left]) with ⟨_, found⟩
          simp only [left, List.not_mem_nil, false_and, exists_false, imp_false] at found
          exact ⟨ForwardOnly.none_cons found, by simp [found]⟩
      | startOver allowed _ => exact absurd allowed once

end RowPhase

namespace Versions

/-- The entries of a row that a snapshot hands out, read off the versions that it is shown. -/
def heldIn (shown : Versions) (snapshot : Snapshot) (row : Bytes) : List Entry :=
  (ColumnCursor.atStart row).remaining snapshot.query
    (Snapshot.visibleAmong snapshot.readAt none shown)

theorem row_eq_of_mem_heldIn {shown : Versions} {snapshot : Snapshot} {row : Bytes} :
    ∀ entry ∈ shown.heldIn snapshot row, entry.row = row :=
  fun _ member => (ColumnCursor.mem_remaining_iff.1 member).2.1

theorem heldIn_ascending {shown : Versions} (ascending : shown.Ascending) {snapshot : Snapshot}
    {row : Bytes} : Entry.Ascending (shown.heldIn snapshot row) :=
  ColumnCursor.remaining_ascending (Snapshot.visibleAmong_ascending ascending)

end Versions

namespace ColumnCursor

variable {engine : Engine} {snapshot : Snapshot} {cursor : ColumnCursor} {shown : Versions}
  {phase : RowPhase}

/-- The phase that a cursor is in. -/
inductive At (snapshot : Snapshot) (shown : Versions) (cursor : ColumnCursor) :
    RowPhase → Prop where
  | within (standing : cursor.Standing) (located : cursor.Located shown) :
      At snapshot shown cursor (.within (cursor.remaining snapshot.query
        (Snapshot.visibleAmong snapshot.readAt none shown)))
  | ended (ended : cursor.Ended shown) : At snapshot shown cursor .ended

theorem At.located (location : cursor.At snapshot shown phase) : cursor.Located shown := by
  cases location with
  | within _ located => exact located
  | ended ended => exact ended.toLocated

theorem at_atStart (snapshot : Snapshot) (shown : Versions) (row : Bytes) :
    (atStart row).At snapshot shown (.within (shown.heldIn snapshot row)) :=
  .within (standing_atStart row) (located_atStart shown row)

theorem located_on {entry : Entry} {readAt : Timestamp} (timestamp : Timestamp)
    (visible : entry ∈ engine.visibleAt readAt) :
    (on entry timestamp).Located (engine.shownAt readAt) := by
  constructor
  case metInRow =>
    rintro met ⟨⟩
    rfl
  case settledInRow =>
    rintro cell ⟨⟩
    exact ⟨rfl, Engine.exists_shown_of_visible visible⟩
  case passed =>
    rintro other _ _ met ⟨⟩ notBefore
    exact ⟨_, rfl, fun before => notBefore (Or.inl before)⟩

theorem Located.fetchColumn_ends (located : cursor.Located (engine.shownAt snapshot.readAt))
    (available : engine.available = true)
    (inhabited : ∃ entry ∈ engine.shownAt snapshot.readAt, entry.1.cell.row = cursor.row)
    (nothing : (cursor.walk engine snapshot).1 = none) :
    ∃ next, cursor.fetchColumn engine snapshot = (.ok none, next) ∧
      next.At snapshot (engine.shownAt snapshot.readAt) .ended ∧ next.row = cursor.row := by
  rcases located.ended_walk inhabited nothing with ⟨sameRow, ended, _⟩
  have walked := fetchColumn_eq_walk snapshot available located.metInRow
  rw [nothing] at walked
  exact ⟨_, walked, .ended ended, sameRow⟩

theorem fetchColumn_within {held : List Entry} {again : Prop} (available : engine.available = true)
    (standing : cursor.Standing) (located : cursor.Located (engine.shownAt snapshot.readAt))
    (inhabited : ∃ entry ∈ engine.shownAt snapshot.readAt, entry.1.cell.row = cursor.row) :
    ∃ answer next phase, cursor.fetchColumn engine snapshot = (.ok answer, next) ∧
      RowPhase.Step held again (.within (cursor.remaining snapshot.query
        (Snapshot.visibleAmong snapshot.readAt none (engine.shownAt snapshot.readAt))))
          answer phase ∧
      next.At snapshot (engine.shownAt snapshot.readAt) phase ∧ next.row = cursor.row := by
  rw [← Engine.visibleAt_eq_visibleAmong]
  cases left : cursor.remaining snapshot.query (engine.visibleAt snapshot.readAt) with
  | nil =>
      have nothing := fetchColumn_of_remaining_nil available standing left
      rw [fetchColumn_eq_walk snapshot available located.metInRow, Except.ok.injEq] at nothing
      rcases located.fetchColumn_ends available inhabited nothing with ⟨next, fetched, location⟩
      exact ⟨none, next, .ended, fetched, .finish rfl, location⟩
  | cons entry rest =>
      rcases fetchColumn_of_remaining_cons available standing left with ⟨timestamp, fetched⟩
      have member : entry ∈ cursor.remaining snapshot.query (engine.visibleAt snapshot.readAt) :=
        left ▸ List.mem_cons_self
      rcases mem_remaining_iff.1 member with ⟨visible, sameRow, _⟩
      have next : (on entry timestamp).At snapshot (engine.shownAt snapshot.readAt) _ :=
        .within (standing_on entry timestamp) (located_on timestamp visible)
      rw [← Engine.visibleAt_eq_visibleAmong,
        remaining_on Engine.visibleAt_ascending left timestamp] at next
      exact ⟨_, _, _, fetched, .column entry rest, next, sameRow⟩

/-- A fetch is one step from phase to phase. -/
theorem At.fetchColumn (location : cursor.At snapshot (engine.shownAt snapshot.readAt) phase)
    (available : engine.available = true)
    (inhabited : ∃ entry ∈ engine.shownAt snapshot.readAt, entry.1.cell.row = cursor.row) :
    ∃ answer next nextPhase, cursor.fetchColumn engine snapshot = (.ok answer, next) ∧
      RowPhase.Step ((engine.shownAt snapshot.readAt).heldIn snapshot cursor.row)
        ((engine.shownAt snapshot.readAt).ShowSeveral cursor.row) phase answer nextPhase ∧
      next.At snapshot (engine.shownAt snapshot.readAt) nextPhase ∧ next.row = cursor.row := by
  cases location with
  | within standing located => exact fetchColumn_within available standing located inhabited
  | ended ended =>
      by_cases stays : cursor.lastMet ≠ none ∨
          ¬ Versions.ShowSeveral (engine.shownAt snapshot.readAt) cursor.row
      · rcases ended.fetchColumn_ends available inhabited (ended.walk_stays stays) with
          ⟨next, fetched, location⟩
        exact ⟨none, next, .ended, fetched, .finish rfl, location⟩
      · simp only [not_or, ne_eq, Classical.not_not] at stays
        rcases stays with ⟨usedUp, several⟩
        rcases fetchColumn_within available (standing_atStart cursor.row)
            (located_atStart _ cursor.row) inhabited with
          ⟨answer, next, nextPhase, fetched, step, location, sameRow⟩
        refine ⟨answer, next, nextPhase, ?_, .startOver several step, location, sameRow⟩
        rw [fetchColumn_eq_walk snapshot available ended.metInRow,
          ended.walk_startsOver usedUp several, ← fetched]
        exact (fetchColumn_eq_walk snapshot available (located_atStart [] cursor.row).metInRow).symm

end ColumnCursor

namespace Answer

def column? : Answer → Option (Option (Column × Bytes))
  | column found => some found
  | _ => none

end Answer

namespace Call

/-- What the calls for columns of a view were answered with. -/
def columns (number : Nat) (calls : List Call) : List (Option (Column × Bytes)) :=
  (onView number calls).filterMap fun call => call.2.column?

@[simp]
theorem columns_nil (number : Nat) : columns number [] = [] := rfl

@[simp]
theorem columns_cons_own (number : Nat) (answer : Answer) (later : List Call) :
    columns number ((.fetchColumn number, answer) :: later) =
      answer.column?.toList ++ columns number later := by
  have own : (Operation.fetchColumn number).fetchesFrom number = true := by
    simp [Operation.fetchesFrom]
  cases answered : answer.column? <;> simp [columns, onView, own, answered]

theorem columns_append (number : Nat) (earlier later : List Call) :
    columns number (earlier ++ later) = columns number earlier ++ columns number later := by
  simp [columns, onView]

theorem columns_cons_other {number : Nat} {operation : Operation} (answer : Answer)
    (later : List Call) (elsewhere : operation.touches number = false) :
    columns number ((operation, answer) :: later) = columns number later := by
  have notOwn : operation.fetchesFrom number = false := by
    cases operation <;> first | rfl | exact elsewhere
  simp [columns, onView, notOwn]

end Call

namespace Cluster

/-- Operations during which a view stays at its row. -/
structure StaysInRow (cluster : Cluster) (number : Nat) (session : List Operation) : Prop where
  operations : ∀ operation ∈ session,
    operation = .fetchColumn number ∨ operation.touches number = false
  room : cluster.HasRoomFor session

/-- A cluster in which the columns of a row are being read from a view, in some phase. -/
structure ReadsColumns (number : Nat) (snapshot : Snapshot) (shown : Versions) (row : Bytes)
    (phase : RowPhase) (cluster : Cluster) : Prop where
  view : ∃ cursor, cluster.view? number = some ⟨snapshot, some cursor⟩ ∧ cursor.row = row ∧
    cursor.At snapshot shown phase
  shows : cluster.engine.shownAt snapshot.readAt = shown
  inhabited : ∃ entry ∈ shown, entry.1.cell.row = row
  past : ¬ cluster.engine.clock < snapshot.readAt

section Reading

variable {cluster : Cluster} {number : Nat} {snapshot : Snapshot} {shown : Versions} {row : Bytes}
  {phase : RowPhase}

theorem ReadsColumns.perform_other (reads : cluster.ReadsColumns number snapshot shown row phase)
    {operation : Operation} (elsewhere : operation.touches number = false)
    (room : cluster.HasRoomFor [operation]) :
    (cluster.perform operation).2.ReadsColumns number snapshot shown row phase := by
  rcases reads.view with ⟨cursor, here, location⟩
  rcases shownAt_perform reads.past room with ⟨kept, past⟩
  exact ⟨⟨cursor, view?_perform_of_not_touches here elsewhere, location⟩, kept.trans reads.shows,
    reads.inhabited, past⟩

theorem ReadsColumns.perform_offline (reads : cluster.ReadsColumns number snapshot shown row phase)
    (offline : cluster.engine.available = false) :
    cluster.perform (.fetchColumn number) = (.failed Engine.offline, cluster) := by
  rcases reads.view with ⟨cursor, here, _⟩
  simp [perform, here, View.fetchColumn, ColumnCursor.fetchColumn_of_offline offline,
    setView_self here]

theorem perform_fetchColumn {cursor next : ColumnCursor} {answer : Option (Column × Bytes)}
    (here : cluster.view? number = some ⟨snapshot, some cursor⟩)
    (fetched : cursor.fetchColumn cluster.engine snapshot = (.ok answer, next)) :
    cluster.perform (.fetchColumn number) =
      (.column answer, cluster.setView number (some ⟨snapshot, some next⟩)) := by
  simp [perform, here, View.fetchColumn, fetched]

theorem ReadsColumns.perform_own (reads : cluster.ReadsColumns number snapshot shown row phase)
    (available : cluster.engine.available = true) :
    ∃ answer next, (cluster.perform (.fetchColumn number)).1 = .column answer ∧
      RowPhase.Step (shown.heldIn snapshot row) (shown.ShowSeveral row) phase answer next ∧
      (cluster.perform (.fetchColumn number)).2.ReadsColumns number snapshot shown row next ∧
      (cluster.perform (.fetchColumn number)).2.engine = cluster.engine := by
  rcases reads.view with ⟨cursor, here, rfl, location⟩
  have shows := reads.shows
  subst shows
  rcases location.fetchColumn available reads.inhabited with
    ⟨answer, next, nextPhase, fetched, step, nextLocation, sameRow⟩
  rw [perform_fetchColumn here fetched]
  exact ⟨answer, nextPhase, rfl, step, ⟨⟨next, view?_setView_self here _, sameRow, nextLocation⟩,
    rfl, reads.inhabited, reads.past⟩, rfl⟩

/-- The answers to all calls for columns lead from phase to phase. -/
theorem ReadsColumns.performAll (reads : cluster.ReadsColumns number snapshot shown row phase)
    {session : List Operation} (stays : cluster.StaysInRow number session) :
    ∃ last, RowPhase.Steps (shown.heldIn snapshot row) (shown.ShowSeveral row) phase
        (Call.columns number (cluster.transcript session)) last ∧
      (cluster.performAll session).2.ReadsColumns number snapshot shown row last := by
  induction session generalizing cluster phase with
  | nil => exact ⟨phase, .nil phase, reads⟩
  | cons operation rest ih =>
      rcases stays.room.cons with ⟨roomFirst, roomRest⟩
      have restStays : (cluster.perform operation).2.StaysInRow number rest :=
        ⟨fun other member => stays.operations other (List.mem_cons_of_mem _ member), roomRest⟩
      rcases stays.operations operation List.mem_cons_self with rfl | elsewhere
      · rw [transcript_cons, Call.columns_cons_own]
        cases available : cluster.engine.available with
        | false =>
            have failed := reads.perform_offline available
            rw [performAll_cons]
            rw [failed] at restStays ⊢
            exact ih reads restStays
        | true =>
            rcases reads.perform_own available with ⟨answer, next, answered, step, nextReads, _⟩
            rcases ih nextReads restStays with ⟨last, steps, lastReads⟩
            rw [answered]
            exact ⟨last, .cons step steps, lastReads⟩
      · rw [transcript_cons, Call.columns_cons_other _ _ elsewhere]
        exact ih (reads.perform_other elsewhere roomFirst) restStays

/-- Without other clients, as many calls as there are columns left hand these out. -/
theorem ReadsColumns.performAll_left {left : List Entry}
    (reads : cluster.ReadsColumns number snapshot shown row (.within left))
    (available : cluster.engine.available = true) :
    Call.columns number
        (cluster.transcript (List.replicate left.length (.fetchColumn number))) =
      left.map (fun entry => some (entry.column, entry.value)) ∧
    (cluster.performAll (List.replicate left.length (.fetchColumn number))).2.ReadsColumns
      number snapshot shown row (.within []) ∧
    (cluster.performAll (List.replicate left.length (.fetchColumn number))).2.engine =
      cluster.engine := by
  induction left generalizing cluster with
  | nil => exact ⟨rfl, reads, rfl⟩
  | cons entry rest ih =>
      rcases reads.perform_own available with ⟨answer, next, answered, step, nextReads, same⟩
      cases step with
      | column =>
          rw [← same] at available
          rcases ih nextReads available with ⟨columns, lastReads, sameEngine⟩
          rw [List.length_cons, List.replicate_succ, transcript_cons,
            Call.columns_cons_own, answered]
          exact ⟨congrArg (some _ :: ·) columns, lastReads, sameEngine.trans same⟩
      | finish nothingLeft => cases nothingLeft

/-- Without other clients, a row of several cells is handed out again after one or two answers that
report its end. -/
theorem ReadsColumns.performAll_end {first : Entry} {rest : List Entry}
    (reads : cluster.ReadsColumns number snapshot shown row (.within []))
    (available : cluster.engine.available = true)
    (held : shown.heldIn snapshot row = first :: rest) (several : shown.ShowSeveral row) :
    ∃ pauses ≤ 1, Call.columns number
        (cluster.transcript (List.replicate (pauses + 2) (.fetchColumn number))) =
      List.replicate (pauses + 1) none ++ [some (first.column, first.value)] := by
  rcases reads.view with ⟨cursor, here, rfl, location⟩
  have shows := reads.shows
  subst shows
  rw [Versions.heldIn, ← Engine.visibleAt_eq_visibleAmong] at held
  rcases ColumnCursor.fetchColumn_of_remaining_cons available
    (ColumnCursor.standing_atStart cursor.row) held with ⟨timestamp, restarted⟩
  rcases location.fetchColumn available reads.inhabited with
    ⟨answer, next, nextPhase, fetched, step, _⟩
  cases step with
  | finish =>
      have nextHere := view?_setView_self here (some ⟨snapshot, some next⟩)
      rcases location.located.fetchColumn_startsOver available fetched several with
        again | ⟨after, stays, again⟩
      · refine ⟨0, by decide, ?_⟩
        rw [restarted] at again
        simp [List.replicate, perform_fetchColumn here fetched,
          perform_fetchColumn nextHere again, Answer.column?]
      · refine ⟨1, by decide, ?_⟩
        have afterHere := view?_setView_self nextHere (some ⟨snapshot, some after⟩)
        rw [restarted] at again
        simp [List.replicate, perform_fetchColumn here fetched,
          perform_fetchColumn nextHere stays, perform_fetchColumn afterHere again, Answer.column?]

/-- A row that is handed out holds an entry, and the view then stands at its start. -/
theorem exists_entry_of_fetched {start : Cluster}
    (fetched : cluster.perform (.fetchRow number) = (.row (some row), start)) :
    cluster.engine.available = true ∧ start.engine = cluster.engine ∧ ∃ view entry,
      cluster.view? number = some view ∧
      start.view? number = some ⟨view.snapshot.past row, some (.atStart row)⟩ ∧
      entry ∈ (ColumnCursor.atStart row).remaining view.snapshot.query
        (cluster.engine.visibleAt view.snapshot.readAt) := by
  cases here : cluster.view? number with
  | none => simp [perform, here] at fetched
  | some view =>
      cases available : cluster.engine.available with
      | false => simp [perform, here, View.fetchRow_of_offline available] at fetched
      | true =>
          cases left : view.snapshot.remaining
              (cluster.engine.visibleAt view.snapshot.readAt) with
          | nil => simp [perform, here, View.fetchRow_of_remaining_nil available left] at fetched
          | cons entry rest =>
              simp only [perform, here, View.fetchRow_of_remaining_cons available left,
                Prod.mk.injEq, Answer.row.injEq, Option.some.injEq] at fetched
              rcases fetched with ⟨rfl, rfl⟩
              have found : entry ∈ view.snapshot.remaining
                  (cluster.engine.visibleAt view.snapshot.readAt) := left ▸ List.mem_cons_self
              rcases Snapshot.mem_remaining_iff.1 found with ⟨_, visible, _, _, selected⟩
              exact ⟨rfl, rfl, view, entry, rfl, view?_setView_self here _,
                ColumnCursor.mem_remaining_iff.2 ⟨visible, rfl, selected, rfl⟩⟩

theorem readsColumns_fetched {start : Cluster} (readsPast : cluster.ReadsPast)
    (fetched : cluster.perform (.fetchRow number) = (.row (some row), start)) :
    start.engine.available = true ∧ ∃ snapshot,
      start.view? number = some ⟨snapshot, some (.atStart row)⟩ ∧
      (start.engine.shownAt snapshot.readAt).heldIn snapshot row ≠ [] ∧
      start.ReadsColumns number snapshot (start.engine.shownAt snapshot.readAt) row
        (.within ((start.engine.shownAt snapshot.readAt).heldIn snapshot row)) := by
  rcases exists_entry_of_fetched fetched with
    ⟨available, sameEngine, view, entry, here, opened, member⟩
  have past := readsPast number view here
  rw [← sameEngine] at available member past
  rcases ColumnCursor.mem_remaining_iff.1 member with ⟨visible, sameRow, _⟩
  rcases Engine.exists_shown_of_visible visible with ⟨version, shown, sameCell⟩
  rw [Engine.visibleAt_eq_visibleAmong] at member
  refine ⟨available, _, opened, List.ne_nil_of_mem member, ?_⟩
  exact ⟨⟨_, opened, rfl, ColumnCursor.at_atStart _ _ row⟩, rfl,
    ⟨version, shown, (congrArg CellAddress.row sameCell).trans sameRow⟩, past⟩

end Reading

theorem staysInRow_replicate (cluster : Cluster) (number count : Nat) :
    cluster.StaysInRow number (List.replicate count (.fetchColumn number)) := by
  constructor
  case operations => exact fun operation member => Or.inl (List.eq_of_mem_replicate member)
  case room =>
    have noTicks : Answer.ticks
        (cluster.performAll (List.replicate count (.fetchColumn number))).1 = 0 := by
      induction count generalizing cluster with
      | zero => rfl
      | succ count ih =>
          have still := (cluster.perform_spec (.fetchColumn number)).2
          simp [List.replicate_succ, still, Engine.takesTick, ih]
    have bounded := cluster.engine.clock.ticks.toNat_lt
    rw [HasRoomFor, noTicks]
    exact bounded

/-- The columns of a row are handed out in ascending order, followed by its end, and this goes on to
be so with all calls that follow exactly if the reader is shown a single cell of the row. Otherwise
the row may be handed out again. -/
theorem columns_forwardOnly_iff {history : List Operation} {number : Nat} {row : Bytes}
    {start : Cluster} {view : View} (room : fresh.HasRoomFor history)
    (fetched : (fresh.performAll history).2.perform (.fetchRow number) = (.row (some row), start))
    (here : start.view? number = some view) :
    (((start.engine.shownAt view.snapshot.readAt).heldIn view.snapshot row).map
        Entry.column).Pairwise (· < ·) ∧
    (∀ session, start.StaysInRow number session →
      ∃ last, RowPhase.Steps ((start.engine.shownAt view.snapshot.readAt).heldIn view.snapshot row)
          ((start.engine.shownAt view.snapshot.readAt).ShowSeveral row)
          (.within ((start.engine.shownAt view.snapshot.readAt).heldIn view.snapshot row))
          (Call.columns number (start.transcript session)) last ∧
        ((start.performAll session).2.engine.available = true →
          ∃ answer, ((start.performAll session).2.perform (.fetchColumn number)).1 =
            .column answer)) ∧
    ((∀ session, start.StaysInRow number session →
        ForwardOnly (Call.columns number (start.transcript session))) ↔
      ¬ (start.engine.shownAt view.snapshot.readAt).ShowSeveral row) := by
  have readsPast := readsPast_fresh.performAll room
  rcases readsColumns_fetched readsPast fetched with
    ⟨available, snapshot, opened, inhabited, reads⟩
  rw [opened, Option.some.injEq] at here
  subst here
  have ascending : Entry.Ascending
      ((start.engine.shownAt snapshot.readAt).heldIn snapshot row) :=
    Versions.heldIn_ascending (start.engine.versions.ascending.filter _)
  have inRow := @Versions.row_eq_of_mem_heldIn (start.engine.shownAt snapshot.readAt) snapshot row
  refine ⟨?_, ?_, ?_, ?_⟩
  · rw [List.pairwise_map]
    refine ascending.imp_of_mem ?_
    intro left right leftMember rightMember before
    exact Entry.column_lt_of_cell_lt ((inRow left leftMember).trans (inRow right rightMember).symm)
      before
  · intro session stays
    rcases reads.performAll stays with ⟨last, steps, readsThen⟩
    refine ⟨last, steps, fun online => ?_⟩
    rcases readsThen.perform_own online with ⟨answer, _, answered, _⟩
    exact ⟨answer, answered⟩
  · intro forward several
    rcases List.exists_cons_of_ne_nil inhabited with ⟨first, rest, held⟩
    rcases reads.performAll_left available with ⟨columns, readsThen, sameEngine⟩
    rw [← sameEngine] at available
    rcases readsThen.performAll_end available held several with ⟨pauses, _, startsOver⟩
    have ended := (forward _ (start.staysInRow_replicate number
      (((start.engine.shownAt snapshot.readAt).heldIn snapshot row).length +
        (pauses + 2)))).staysEnded
    rw [← List.replicate_append_replicate, transcript_append, Call.columns_append, columns,
      startsOver] at ended
    have again := (List.pairwise_append.1 (List.pairwise_append.1 ended).2.1).2.2 none
      (by simp) (some (first.column, first.value)) (by simp) rfl
    cases again
  · intro single session stays
    rcases reads.performAll stays with ⟨last, steps, _⟩
    exact (steps.forwardOnly single ascending inRow).1

/-- Two commits to one column of a row, one of them notified, before a snapshot is opened, and a
commit to another column of the row after it. -/
def overwrittenColumn : List Operation :=
  [.commit [.set ⟨[1], ⟨[10], []⟩⟩ [7]],
    .commit [.set ⟨[1], ⟨[10], []⟩⟩ [8], .notify ⟨[1], ⟨[10], []⟩⟩], .openView ⟨.all, .empty⟩,
    .commit [.set ⟨[1], ⟨[11], []⟩⟩ [9]]]

theorem columns_forwardOnly_overwrittenColumn :
    ∃ start view, fresh.HasRoomFor overwrittenColumn ∧
      (fresh.performAll overwrittenColumn).2.perform (.fetchRow 0) = (.row (some [1]), start) ∧
      start.view? 0 = some view ∧
      ¬ (start.engine.shownAt view.snapshot.readAt).ShowSeveral [1] ∧
      ∀ session, start.StaysInRow 0 session →
        ForwardOnly (Call.columns 0 (start.transcript session)) := by
  have room : fresh.HasRoomFor overwrittenColumn := by decide
  have fetched : (fresh.performAll overwrittenColumn).2.perform (.fetchRow 0) =
      (.row (some [1]), ((fresh.performAll overwrittenColumn).2.perform (.fetchRow 0)).2) := by
    decide
  have here : ((fresh.performAll overwrittenColumn).2.perform (.fetchRow 0)).2.view? 0 =
      some ⟨⟨⟨3⟩, ⟨.all, .empty⟩, .excluded [1], false⟩, some (.atStart [1])⟩ := by
    decide
  have single : ¬ (((fresh.performAll overwrittenColumn).2.perform (.fetchRow 0)).2.engine.shownAt
      ⟨3⟩).ShowSeveral [1] := by
    decide
  exact ⟨_, _, room, fetched, here, single,
    (columns_forwardOnly_iff room fetched here).2.2.2 single⟩

/-- In a row of two columns the first one is handed out again after the end. -/
theorem columns_startOver_twoColumns :
    ∃ start view, fresh.HasRoomFor (twoColumns ++ [.openView ⟨.all, .empty⟩]) ∧
      (fresh.performAll (twoColumns ++ [.openView ⟨.all, .empty⟩])).2.perform (.fetchRow 0) =
        (.row (some [1]), start) ∧
      start.view? 0 = some view ∧
      start.engine.available = true ∧
      start.StaysInRow 0 (List.replicate 4 (.fetchColumn 0)) ∧
      Call.columns 0 (start.transcript (List.replicate 4 (.fetchColumn 0))) =
        [some (⟨[10], []⟩, [6]), some (⟨[11], []⟩, [8]), none, some (⟨[10], []⟩, [6])] ∧
      ¬ ForwardOnly (Call.columns 0 (start.transcript (List.replicate 4 (.fetchColumn 0)))) := by
  exact ⟨((fresh.performAll (twoColumns ++ [.openView ⟨.all, .empty⟩])).2.perform
    (.fetchRow 0)).2, ⟨⟨⟨3⟩, ⟨.all, .empty⟩, .excluded [1], false⟩, some (.atStart [1])⟩,
    by decide, by decide, by decide, by decide, staysInRow_replicate _ 0 4, by decide, by decide⟩

end Cluster

end DataflowOps
