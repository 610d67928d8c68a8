import Mathlib.Data.List.Dedup
import DataflowOps.Proofs.ColumnPasses

/-!
# The rows of a view and their columns

Rows and columns are found by two different walks. This file shows that they agree: the rows handed
out are those of the query's interval whose columns, fetched until there are no more, are at least
one. How many columns a reader fetches of each row does not matter to the rows, and neither does
anything that other clients do; and rows that have ended stay so.
-/

namespace DataflowOps

namespace Snapshot

variable {snapshot : Snapshot} {visible : List Entry} {entry : Entry} {rest : List Entry}

/-- The rows that are still to be handed out. -/
def rowsLeft (snapshot : Snapshot) (visible : List Entry) : List Bytes :=
  ((snapshot.remaining visible).map Entry.row).dedup

theorem mem_rowsLeft_iff {row : Bytes} :
    row ∈ snapshot.rowsLeft visible ↔ ∃ entry ∈ snapshot.remaining visible, entry.row = row := by
  rw [rowsLeft, List.mem_dedup, List.mem_map]

theorem rowsLeft_ascending (ascending : Entry.Ascending visible) :
    (snapshot.rowsLeft visible).Pairwise (· < ·) := by
  apply StrictTotalOrder.dedup_ascending
  apply List.pairwise_map.2
  exact (remaining_ascending ascending).imp Entry.row_not_lt_of_cell_lt

theorem rowsLeft_of_nil (noneLeft : snapshot.remaining visible = []) :
    snapshot.rowsLeft visible = [] := by
  rw [rowsLeft, noneLeft]
  rfl

@[simp]
theorem rowsLeft_ended : snapshot.ended.rowsLeft visible = [] :=
  rowsLeft_of_nil remaining_ended

theorem rowsLeft_of_cons (ascending : Entry.Ascending visible)
    (left : snapshot.remaining visible = entry :: rest) :
    snapshot.rowsLeft visible = entry.row :: (snapshot.past entry.row).rowsLeft visible := by
  have after : ∀ row ∈ (snapshot.past entry.row).rowsLeft visible, entry.row < row := by
    intro row member
    rcases mem_rowsLeft_iff.1 member with ⟨other, otherMember, rfl⟩
    simpa [past, Bound.admitsFromBelow] using (mem_remaining_iff.1 otherMember).2.2.1
  refine eq_of_ascending (fun _ _ => StrictTotalOrder.asymm) (rowsLeft_ascending ascending)
    (List.pairwise_cons.2 ⟨after, rowsLeft_ascending ascending⟩) ?_
  intro row
  rw [List.mem_cons, mem_rowsLeft_iff, mem_rowsLeft_iff, remaining_eq_append ascending left]
  constructor
  · rintro ⟨other, member, rfl⟩
    rcases List.mem_append.1 member with inRow | past
    · exact Or.inl (ColumnCursor.mem_remaining_iff.1 inRow).2.1
    · exact Or.inr ⟨other, past, rfl⟩
  · rintro (rfl | ⟨other, past, rfl⟩)
    · refine ⟨entry, ?_, rfl⟩
      rw [← remaining_eq_append ascending left, left]
      exact List.mem_cons_self
    · exact ⟨other, List.mem_append_right _ past, rfl⟩

/-- The rows of a snapshot that has just been opened are those of its interval that hold anything
for a cursor at their start. -/
theorem mem_rowsLeft_opened_iff {readAt : Timestamp} {query : Query} {row : Bytes} :
    row ∈ rowsLeft ⟨readAt, query, query.rows.lower, query.rows.isEmpty⟩ visible ↔
      query.rows.contains row = true ∧
        (ColumnCursor.atStart row).remaining query visible ≠ [] := by
  rw [mem_rowsLeft_iff, remaining_opened]
  constructor
  · rintro ⟨entry, member, rfl⟩
    rw [List.mem_filter, Query.covers, Bool.and_eq_true] at member
    refine ⟨member.2.1, List.ne_nil_of_mem (a := entry) ?_⟩
    exact ColumnCursor.mem_remaining_iff.2 ⟨member.1, rfl, member.2.2, rfl⟩
  · rintro ⟨contained, someEntry⟩
    rcases List.exists_mem_of_ne_nil _ someEntry with ⟨entry, member⟩
    rcases ColumnCursor.mem_remaining_iff.1 member with ⟨sees, rfl, selected, _⟩
    refine ⟨entry, List.mem_filter.2 ⟨sees, ?_⟩, rfl⟩
    rw [Query.covers, Bool.and_eq_true]
    exact ⟨contained, selected⟩

end Snapshot

/-- What is fetched from the columns of a row until there are no more, with any operations before
each fetch. -/
inductive Drains (snapshot : Snapshot) : Cluster → ColumnCursor → List (Column × Bytes) → Prop where
  | ended {cluster : Cluster} {cursor next : ColumnCursor} (others : List Operation)
      (room : cluster.HasRoomFor others)
      (fetched : cursor.fetchColumn (cluster.performAll others).2.engine snapshot =
        (.ok none, next)) : Drains snapshot cluster cursor []
  | column {cluster : Cluster} {cursor next : ColumnCursor} {found : Column × Bytes}
      {later : List (Column × Bytes)} (others : List Operation) (room : cluster.HasRoomFor others)
      (fetched : cursor.fetchColumn (cluster.performAll others).2.engine snapshot =
        (.ok (some found), next))
      (drains : Drains snapshot (cluster.performAll others).2 next later) :
      Drains snapshot cluster cursor (found :: later)

section Draining

variable {snapshot : Snapshot} {cluster : Cluster} {cursor : ColumnCursor}
  {columns : List (Column × Bytes)}

theorem ColumnCursor.available_of_fetchColumn {engine : Engine} {next : ColumnCursor}
    {answer : Option (Column × Bytes)}
    (fetched : cursor.fetchColumn engine snapshot = (.ok answer, next)) :
    engine.available = true := by
  cases available : engine.available with
  | false => simp [ColumnCursor.fetchColumn_of_offline available] at fetched
  | true => rfl

/-- Whatever happens between the fetches, a row is drained of what it held for the cursor. -/
theorem Drains.eq_remaining (drains : Drains snapshot cluster cursor columns)
    (past : ¬ cluster.engine.clock < snapshot.readAt) (standing : cursor.Standing) :
    columns = (cursor.remaining snapshot.query (cluster.engine.visibleAt snapshot.readAt)).map
      fun entry => (entry.column, entry.value) := by
  induction drains with
  | @ended cluster cursor next others room fetched =>
      rcases Cluster.visibleAt_performAll past room with ⟨visible, _⟩
      have available := ColumnCursor.available_of_fetchColumn fetched
      rw [← visible]
      cases left : cursor.remaining snapshot.query
          ((cluster.performAll others).2.engine.visibleAt snapshot.readAt) with
      | nil => rfl
      | cons entry rest =>
          rcases ColumnCursor.fetchColumn_of_remaining_cons available standing left with
            ⟨timestamp, other⟩
          simp [fetched] at other
  | @column cluster cursor next found later others room fetched _ ih =>
      rcases Cluster.visibleAt_performAll past room with ⟨visible, pastThen⟩
      have available := ColumnCursor.available_of_fetchColumn fetched
      rw [← visible]
      cases left : cursor.remaining snapshot.query
          ((cluster.performAll others).2.engine.visibleAt snapshot.readAt) with
      | nil =>
          have other := ColumnCursor.fetchColumn_of_remaining_nil available standing left
          simp [fetched] at other
      | cons entry rest =>
          rcases ColumnCursor.fetchColumn_of_remaining_cons available standing left with
            ⟨timestamp, other⟩
          rw [fetched, Prod.mk.injEq, Except.ok.injEq, Option.some.injEq] at other
          rcases other with ⟨rfl, rfl⟩
          rw [ih pastThen (ColumnCursor.standing_on entry timestamp),
            ColumnCursor.remaining_on Engine.visibleAt_ascending left timestamp, List.map_cons]

/-- A row can be drained without other clients. -/
theorem exists_drains (available : cluster.engine.available = true) (standing : cursor.Standing) :
    ∃ columns, Drains snapshot cluster cursor columns := by
  have room : cluster.HasRoomFor [] := cluster.engine.clock.ticks.toNat_lt
  induction left : cursor.remaining snapshot.query (cluster.engine.visibleAt snapshot.readAt)
    generalizing cursor with
  | nil =>
      have nothing := ColumnCursor.fetchColumn_of_remaining_nil available standing left
      exact ⟨[], .ended [] room (Prod.ext nothing rfl)⟩
  | cons entry rest ih =>
      rcases ColumnCursor.fetchColumn_of_remaining_cons available standing left with
        ⟨timestamp, fetched⟩
      rcases ih (ColumnCursor.standing_on entry timestamp)
        (ColumnCursor.remaining_on Engine.visibleAt_ascending left timestamp) with
        ⟨later, drains⟩
      exact ⟨_, .column [] room fetched drains⟩

end Draining

namespace Answer

def row? : Answer → Option (Option Bytes)
  | row found => some found
  | _ => none

end Answer

namespace Call

/-- What the calls for rows of a view were answered with. -/
def rows (number : Nat) (calls : List Call) : List (Option Bytes) :=
  (onView number calls).filterMap fun call => call.2.row?

theorem rows_cons_own {number : Nat} {operation : Operation} (answer : Answer) (later : List Call)
    (own : operation.fetchesFrom number = true) :
    rows number ((operation, answer) :: later) = answer.row?.toList ++ rows number later := by
  cases answered : answer.row? <;> simp [rows, onView, own, answered]

theorem rows_cons_other {number : Nat} {operation : Operation} (answer : Answer)
    (later : List Call) (elsewhere : operation.fetchesFrom number = false) :
    rows number ((operation, answer) :: later) = rows number later := by
  simp [rows, onView, elsewhere]

end Call

namespace Cluster

/-- A cluster in which some rows are still to be handed out by a view. -/
structure ReadsRows (number : Nat) (readAt : Timestamp) (visible : List Entry) (left : List Bytes)
    (cluster : Cluster) : Prop where
  view : ∃ view, cluster.view? number = some view ∧ view.snapshot.readAt = readAt ∧
    view.snapshot.rowsLeft visible = left
  visible : cluster.engine.visibleAt readAt = visible
  past : ¬ cluster.engine.clock < readAt

section Reading

variable {cluster : Cluster} {number : Nat} {readAt : Timestamp} {visible : List Entry}
  {left : List Bytes}

theorem ReadsRows.perform_other (reads : cluster.ReadsRows number readAt visible left)
    {operation : Operation} (elsewhere : operation.touches number = false)
    (room : cluster.HasRoomFor [operation]) :
    (cluster.perform operation).2.ReadsRows number readAt visible left := by
  rcases reads.view with ⟨view, here, same⟩
  rcases visibleAt_perform reads.past room with ⟨kept, past⟩
  exact ⟨⟨view, view?_perform_of_not_touches here elsewhere, same⟩, kept.trans reads.visible, past⟩

/-- A call for a column leaves the rows alone, and it is not answered with a row. -/
theorem ReadsRows.perform_fetchColumn (reads : cluster.ReadsRows number readAt visible left) :
    (cluster.perform (.fetchColumn number)).1.row? = none ∧
      (cluster.perform (.fetchColumn number)).2.ReadsRows number readAt visible left := by
  rcases reads.view with ⟨view, here, same⟩
  rw [perform_fetchColumn_snd here]
  constructor
  · simp only [perform, here]
    split <;> rfl
  · refine ⟨⟨_, view?_setView_self here _, ?_⟩, reads.visible, reads.past⟩
    rw [View.fetchColumn_snapshot]
    exact same

/-- A call for a row is answered with the first row that is left. -/
theorem ReadsRows.perform_fetchRow (reads : cluster.ReadsRows number readAt visible left)
    (available : cluster.engine.available = true) :
    (cluster.perform (.fetchRow number)).1 = .row left.head? ∧
      (cluster.perform (.fetchRow number)).2.ReadsRows number readAt visible left.tail := by
  rcases reads.view with ⟨view, here, rfl, rfl⟩
  have ascending : Entry.Ascending (cluster.engine.visibleAt view.snapshot.readAt) :=
    Engine.visibleAt_ascending
  have sees := reads.visible
  subst sees
  cases left : view.snapshot.remaining (cluster.engine.visibleAt view.snapshot.readAt) with
  | nil =>
      rw [Snapshot.rowsLeft_of_nil left]
      simp only [perform, here, View.fetchRow_of_remaining_nil available left]
      exact ⟨rfl, ⟨_, view?_setView_self here _, rfl, Snapshot.rowsLeft_ended⟩, rfl, reads.past⟩
  | cons entry rest =>
      rw [Snapshot.rowsLeft_of_cons ascending left]
      simp only [perform, here, View.fetchRow_of_remaining_cons available left]
      exact ⟨rfl, ⟨_, view?_setView_self here _, rfl, rfl⟩, rfl, reads.past⟩

theorem ReadsRows.perform_offline (reads : cluster.ReadsRows number readAt visible left)
    (offline : cluster.engine.available = false) :
    cluster.perform (.fetchRow number) = (.failed Engine.offline, cluster) := by
  rcases reads.view with ⟨view, here, _⟩
  simp [perform, here, View.fetchRow_of_offline offline, setView_self here]

/-- The calls for rows are answered with the rows that are left, one after the other, and then with
their end. -/
theorem ReadsRows.performAll (reads : cluster.ReadsRows number readAt visible left)
    {session : List Operation} (kept : .release number ∉ session)
    (room : cluster.HasRoomFor session) :
    (∀ (index : Nat) (answer : Option Bytes),
      (Call.rows number (cluster.transcript session))[index]? = some answer →
        answer = left[index]?) ∧
    (cluster.performAll session).2.ReadsRows number readAt visible
      (left.drop (Call.rows number (cluster.transcript session)).length) := by
  induction session generalizing cluster left with
  | nil =>
      refine ⟨fun index answer found => ?_, reads⟩
      cases found
  | cons operation rest ih =>
      rcases room.cons with ⟨roomFirst, roomRest⟩
      simp only [List.mem_cons, not_or] at kept
      rw [transcript_cons, performAll_cons]
      cases own : operation.fetchesFrom number with
      | false =>
          have elsewhere : operation.touches number = false := by
            rw [Operation.touches_eq_fetchesFrom (Ne.symm kept.1), own]
          rw [Call.rows_cons_other _ _ own]
          exact ih (reads.perform_other elsewhere roomFirst) kept.2 roomRest
      | true =>
          rw [Call.rows_cons_own _ _ own]
          rcases Operation.fetchesFrom_eq_true_iff.1 own with rfl | rfl
          · cases available : cluster.engine.available with
            | false =>
                have failed := reads.perform_offline available
                rw [failed] at roomRest ⊢
                exact ih reads kept.2 roomRest
            | true =>
                rcases reads.perform_fetchRow available with ⟨answered, readsThen⟩
                rcases ih readsThen kept.2 roomRest with ⟨answers, readsLast⟩
                rw [answered]
                constructor
                · intro index answer found
                  cases index with
                  | zero =>
                      rw [← List.head?_eq_getElem?]
                      exact (Option.some.inj found).symm
                  | succ index =>
                      rw [← List.getElem?_tail]
                      exact answers index answer found
                · rw [← List.drop_one, List.drop_drop, Nat.add_comm] at readsLast
                  exact readsLast
          · rcases reads.perform_fetchColumn with ⟨noRow, readsThen⟩
            rw [noRow]
            exact ih readsThen kept.2 roomRest

theorem view?_performAll_of_not_touches {view : View} {others : List Operation}
    (here : cluster.view? number = some view)
    (elsewhere : ∀ operation ∈ others, operation.touches number = false) :
    (cluster.performAll others).2.view? number = some view := by
  induction others generalizing cluster with
  | nil => exact here
  | cons operation rest ih =>
      rw [List.forall_mem_cons] at elsewhere
      exact ih (view?_perform_of_not_touches here elsewhere.1) elsewhere.2

/-- A row that is handed out has a first column, also after other operations. -/
theorem ReadsRows.first_column (reads : cluster.ReadsRows number readAt visible left) {row : Bytes}
    {start : Cluster}
    (fetched : cluster.perform (.fetchRow number) = (.row (some row), start))
    {others : List Operation}
    (elsewhere : ∀ operation ∈ others, operation.touches number = false)
    (room : start.HasRoomFor others)
    (available : (start.performAll others).2.engine.available = true) :
    ∃ found, ((start.performAll others).2.perform (.fetchColumn number)).1 =
      .column (some found) := by
  rcases exists_entry_of_fetched fetched with ⟨_, sameEngine, view, entry, here, entered, member⟩
  rcases reads.view with ⟨other, same, rfl, _⟩
  rw [here, Option.some.injEq] at same
  subst same
  have past := reads.past
  rw [← sameEngine] at past member
  rw [← (visibleAt_performAll past room).1] at member
  rcases List.exists_cons_of_ne_nil (List.ne_nil_of_mem member) with ⟨first, later, held⟩
  rcases ColumnCursor.fetchColumn_of_remaining_cons available (ColumnCursor.standing_atStart row)
    held with ⟨timestamp, answered⟩
  rw [Cluster.perform_fetchColumn (view?_performAll_of_not_touches entered elsewhere) answered]
  exact ⟨_, rfl⟩

end Reading

/-- What a view that has just been opened hands out, whatever its reader fetches of each row and
whatever other clients do meanwhile. -/
structure HandsOutRows (opened : Cluster) (number : Nat) (snapshot : Snapshot) (rows : List Bytes) :
    Prop where
  ascending : rows.Pairwise (· < ·)
  drains : ∀ row, ∃ columns, Drains snapshot opened (.atStart row) columns
  mem_iff : ∀ row columns, Drains snapshot opened (.atStart row) columns →
    (row ∈ rows ↔ snapshot.query.rows.contains row = true ∧ columns ≠ [])
  answers : ∀ session, .release number ∉ session → opened.HasRoomFor session →
    ∀ (index : Nat) (answer : Option Bytes),
      (Call.rows number (opened.transcript session))[index]? = some answer →
        answer = rows[index]?
  goesOn : ∀ session, .release number ∉ session → opened.HasRoomFor session →
    (opened.performAll session).2.engine.available = true →
      ((opened.performAll session).2.perform (.fetchRow number)).1 =
        .row rows[(Call.rows number (opened.transcript session)).length]?
  staysEnded : ∀ session, .release number ∉ session → opened.HasRoomFor session →
    (Call.rows number (opened.transcript session)).Pairwise
      fun earlier later => earlier = none → later = none
  firstColumn : ∀ session row start others, .release number ∉ session →
    opened.HasRoomFor session →
    (opened.performAll session).2.perform (.fetchRow number) = (.row (some row), start) →
    (∀ operation ∈ others, operation.touches number = false) → start.HasRoomFor others →
    (start.performAll others).2.engine.available = true →
      ∃ found, ((start.performAll others).2.perform (.fetchColumn number)).1 =
        .column (some found)

theorem staysEnded_of_answers {answers : List (Option Bytes)} {rows : List Bytes}
    (inOrder : ∀ (index : Nat) (answer : Option Bytes), answers[index]? = some answer →
      answer = rows[index]?) :
    answers.Pairwise fun earlier later => earlier = none → later = none := by
  rw [List.pairwise_iff_getElem]
  intro earlier later earlierBound laterBound before ended
  rw [inOrder earlier _ (List.getElem?_eq_getElem earlierBound), List.getElem?_eq_none_iff] at ended
  rw [inOrder later _ (List.getElem?_eq_getElem laterBound), List.getElem?_eq_none_iff]
  omega

/-- The rows of a view are those that its interval contains and of which at least one column can be
fetched, in ascending order and then no more, however many columns are fetched of each. -/
theorem rows_handed_out {history : List Operation} {query : Query} {number : Nat}
    {readAt : Timestamp} {opened : Cluster}
    (opening : (fresh.performAll history).2.perform (.openView query) =
      (.opened number readAt, opened)) :
    ∃ view rows, opened.view? number = some view ∧ view.snapshot.query = query ∧
      view.snapshot.readAt = readAt ∧ HandsOutRows opened number view.snapshot rows := by
  rcases view?_opened opening with ⟨here, available, past⟩
  refine ⟨_, Snapshot.rowsLeft ⟨readAt, query, query.rows.lower, query.rows.isEmpty⟩
    (opened.engine.visibleAt readAt), here, rfl, rfl, ?_⟩
  have reads : opened.ReadsRows number readAt (opened.engine.visibleAt readAt)
      (Snapshot.rowsLeft ⟨readAt, query, query.rows.lower, query.rows.isEmpty⟩
        (opened.engine.visibleAt readAt)) := ⟨⟨_, here, rfl, rfl⟩, rfl, past⟩
  constructor
  case ascending => exact Snapshot.rowsLeft_ascending Engine.visibleAt_ascending
  case drains => exact fun row => exists_drains available (ColumnCursor.standing_atStart row)
  case mem_iff =>
    intro row columns drains
    rw [drains.eq_remaining past (ColumnCursor.standing_atStart row), Ne, List.map_eq_nil_iff]
    exact Snapshot.mem_rowsLeft_opened_iff
  case answers => exact fun session kept room => (reads.performAll kept room).1
  case goesOn =>
    intro session kept room online
    have readsThen := (reads.performAll kept room).2
    rw [(readsThen.perform_fetchRow online).1, List.head?_drop]
  case staysEnded =>
    exact fun session kept room => staysEnded_of_answers (reads.performAll kept room).1
  case firstColumn =>
    intro session row start others kept room fetched
    exact (reads.performAll kept room).2.first_column fetched

/-- Rows of which one begins with another, one has been deleted and one is not asked for. -/
def neighbouringRows : List Operation :=
  [.commit [.set ⟨[1], ⟨[10], []⟩⟩ [7], .set ⟨[1], ⟨[11], []⟩⟩ [8], .set ⟨[1, 0], ⟨[11], []⟩⟩ [9],
      .set ⟨[1, 1], ⟨[10], []⟩⟩ [5], .set ⟨[2], ⟨[11], []⟩⟩ [6]],
    .commit [.delete ⟨[2], ⟨[11], []⟩⟩]]

/-- The reader asks for no column of one row and for too many of another, and a commit removes what
is still to be read. -/
def unevenReads : List Operation :=
  [.fetchRow 0, .commit [.delete ⟨[1, 0], ⟨[11], []⟩⟩, .set ⟨[2], ⟨[11], []⟩⟩ [6]], .fetchRow 0,
    .fetchColumn 0, .fetchColumn 0, .fetchColumn 0, .fetchRow 0, .fetchColumn 0, .fetchRow 0]

theorem rows_handed_out_neighbouringRows :
    ∃ opened view rows,
      (fresh.performAll neighbouringRows).2.perform
          (.openView ⟨.all, .ofList [.family [11]]⟩) = (.opened 0 ⟨3⟩, opened) ∧
        opened.view? 0 = some view ∧ HandsOutRows opened 0 view.snapshot rows ∧
          opened.HasRoomFor unevenReads ∧
            Call.rows 0 (opened.transcript unevenReads) = [some [1], some [1, 0], none, none] := by
  have opening : (fresh.performAll neighbouringRows).2.perform
      (.openView ⟨.all, .ofList [.family [11]]⟩) = (.opened 0 ⟨3⟩,
        ((fresh.performAll neighbouringRows).2.perform
          (.openView ⟨.all, .ofList [.family [11]]⟩)).2) := by
    decide
  rcases rows_handed_out opening with ⟨view, rows, here, _, _, handsOut⟩
  exact ⟨_, view, rows, opening, here, handsOut, by decide, by decide⟩

end Cluster

end DataflowOps
