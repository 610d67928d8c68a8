import DataflowOps.Proofs.Fetches

/-!
# Reading a view among other clients

The owner of a view fetches rows and columns while other clients commit, read the clock, open and
read views of their own and switch the engine off and on. This file relates such a run to the one
in which the owner is alone: what is visible at the view's timestamp never changes, and a call that
finds the engine offline leaves everything as it was. Hence the calls that succeed are answered as
if nobody else were there.
-/

namespace DataflowOps

namespace View

variable {view other : View} {engine otherEngine : Engine} {inRow : Bool}

/-- Two states of a view from which the same answers follow: they agree on the snapshot and, while a
row is being read, on the row and on the cell of it that was handed out last. -/
structure ReadsAs (inRow : Bool) (view other : View) : Prop where
  snapshot : view.snapshot = other.snapshot
  cursor : inRow = true → ∃ cursor otherCursor, view.cursor = some cursor ∧
    other.cursor = some otherCursor ∧ cursor.Standing ∧ otherCursor.Standing ∧
      cursor.row = otherCursor.row ∧ cursor.settled = otherCursor.settled

theorem ReadsAs.fetchRow (agree : view.ReadsAs inRow other) (available : engine.available = true)
    (otherAvailable : otherEngine.available = true)
    (visible : engine.visibleAt view.snapshot.readAt =
      otherEngine.visibleAt view.snapshot.readAt) :
    ∃ row next otherNext, view.fetchRow engine = (.ok row, next) ∧
      other.fetchRow otherEngine = (.ok row, otherNext) ∧ next.ReadsAs row.isSome otherNext ∧
        next.snapshot.readAt = view.snapshot.readAt := by
  cases left : view.snapshot.remaining (engine.visibleAt view.snapshot.readAt) with
  | nil =>
      have fetched := fetchRow_of_remaining_nil available left
      rw [visible, agree.snapshot] at left
      have otherFetched := fetchRow_of_remaining_nil otherAvailable left
      exact ⟨none, _, _, fetched, otherFetched, ⟨congrArg Snapshot.ended agree.snapshot, by simp⟩,
        rfl⟩
  | cons entry rest =>
      have fetched := fetchRow_of_remaining_cons available left
      rw [visible, agree.snapshot] at left
      have otherFetched := fetchRow_of_remaining_cons otherAvailable left
      have past := congrArg (·.past entry.row) agree.snapshot
      exact ⟨some entry.row, _, _, fetched, otherFetched,
        ⟨past, fun _ => ⟨_, _, rfl, rfl, by simp, by simp, rfl, rfl⟩⟩, rfl⟩

theorem ReadsAs.fetchColumn (agree : view.ReadsAs true other) (available : engine.available = true)
    (otherAvailable : otherEngine.available = true)
    (visible : engine.visibleAt view.snapshot.readAt =
      otherEngine.visibleAt view.snapshot.readAt) :
    ∃ column next otherNext, view.fetchColumn engine = (.ok column, next) ∧
      other.fetchColumn otherEngine = (.ok column, otherNext) ∧
        next.ReadsAs column.isSome otherNext ∧ next.snapshot.readAt = view.snapshot.readAt := by
  rcases agree.cursor rfl with
    ⟨cursor, otherCursor, here, there, standing, otherStanding, sameRow, sameSettled⟩
  have same : cursor.remaining view.snapshot.query (engine.visibleAt view.snapshot.readAt) =
      otherCursor.remaining other.snapshot.query
        (otherEngine.visibleAt other.snapshot.readAt) := by
    rw [visible]
    simp only [ColumnCursor.remaining, agree.snapshot, sameRow, sameSettled]
  cases left : cursor.remaining view.snapshot.query (engine.visibleAt view.snapshot.readAt) with
  | nil =>
      rcases fetchColumn_of_remaining_nil available here standing left with ⟨next, fetched⟩
      rcases fetchColumn_of_remaining_nil otherAvailable there otherStanding
        (same.symm.trans left) with ⟨otherNext, otherFetched⟩
      exact ⟨none, _, _, fetched, otherFetched, ⟨agree.snapshot, by simp⟩, rfl⟩
  | cons entry rest =>
      rcases fetchColumn_of_remaining_cons available here standing left with ⟨timestamp, fetched⟩
      rcases fetchColumn_of_remaining_cons otherAvailable there otherStanding
        (same.symm.trans left) with ⟨otherTimestamp, otherFetched⟩
      exact ⟨some (entry.column, entry.value), _, _, fetched, otherFetched,
        ⟨agree.snapshot, fun _ => ⟨_, _, rfl, rfl, by simp, by simp, rfl, rfl⟩⟩, rfl⟩

end View

namespace Operation

def fetchesColumn : Operation → Bool
  | fetchColumn _ => true
  | _ => false

end Operation

namespace Answer

def isFailure : Answer → Bool
  | failed _ => true
  | _ => false

/-- Whether the reader of a view is inside a row after an answer, having been so `before` or not. -/
def leavesInRow : Answer → (before : Bool) → Bool
  | .row found, _ => found.isSome
  | .column found, _ => found.isSome
  | _, before => before

end Answer

namespace Call

/-- The calls among these that fetch from the view of a number. -/
def onView (number : Nat) (calls : List Call) : List Call :=
  calls.filter fun call => call.1.fetchesFrom number

def answered (calls : List Call) : List Call :=
  calls.filter fun call => !call.2.isFailure

/-- Whether columns are fetched only from a row, and not after the row has ended. -/
def stayInRows : (inRow : Bool) → List Call → Bool
  | _, [] => true
  | inRow, (operation, answer) :: rest =>
    (inRow || !operation.fetchesColumn) && stayInRows (answer.leavesInRow inRow) rest

end Call

namespace Cluster

variable {number : Nat} {inRow : Bool} {readAt : Timestamp} {cluster alone : Cluster}

/-- How a cluster that others use as well is related to the one in which the owner of a view is
alone. -/
structure Isolates (readAt : Timestamp) (number : Nat) (inRow : Bool) (cluster alone : Cluster) :
    Prop where
  views : ∃ view other, cluster.view? number = some view ∧ alone.view? number = some other ∧
    view.ReadsAs inRow other ∧ view.snapshot.readAt = readAt
  visible : cluster.engine.visibleAt readAt = alone.engine.visibleAt readAt
  opened : ¬ cluster.engine.clock < readAt
  available : alone.engine.available = true

theorem Isolates.perform_other (isolates : Isolates readAt number inRow cluster alone)
    {operation : Operation} (elsewhere : operation.touches number = false)
    (room : cluster.HasRoomFor [operation]) :
    Isolates readAt number inRow (cluster.perform operation).2 alone := by
  rcases isolates.views with ⟨view, other, here, there, agree, sameReadAt⟩
  rcases visibleAt_perform isolates.opened room with ⟨visible, opened⟩
  exact ⟨⟨view, other, view?_perform_of_not_touches here elsewhere, there, agree, sameReadAt⟩,
    visible.trans isolates.visible, opened, isolates.available⟩

theorem Isolates.perform_offline (isolates : Isolates readAt number inRow cluster alone)
    {call : Operation} (own : call.fetchesFrom number = true)
    (staysInRow : (inRow || !call.fetchesColumn) = true)
    (offline : cluster.engine.available = false) :
    cluster.perform call = (.failed Engine.offline, cluster) := by
  rcases isolates.views with ⟨view, other, here, _, agree, _⟩
  rcases Operation.fetchesFrom_eq_true_iff.1 own with rfl | rfl
  · simp [perform, here, View.fetchRow_of_offline offline, setView_self here]
  · have inside : inRow = true := by simpa [Operation.fetchesColumn] using staysInRow
    rcases agree.cursor inside with ⟨cursor, _, atCursor, _⟩
    simp [perform, here, View.fetchColumn_of_offline offline atCursor, setView_self here]

theorem Isolates.perform_own (isolates : Isolates readAt number inRow cluster alone)
    {call : Operation} (own : call.fetchesFrom number = true)
    (staysInRow : (inRow || !call.fetchesColumn) = true)
    (online : cluster.engine.available = true) :
    (cluster.perform call).1 = (alone.perform call).1 ∧
      (cluster.perform call).1.isFailure = false ∧
        Isolates readAt number ((cluster.perform call).1.leavesInRow inRow)
          (cluster.perform call).2 (alone.perform call).2 := by
  rcases isolates.views with ⟨view, other, here, there, agree, sameReadAt⟩
  have visible := isolates.visible
  rw [← sameReadAt] at visible
  rcases Operation.fetchesFrom_eq_true_iff.1 own with rfl | rfl
  · rcases agree.fetchRow online isolates.available visible with
      ⟨row, next, otherNext, fetched, otherFetched, nextAgree, nextReadAt⟩
    simp only [perform, here, there, fetched, otherFetched]
    exact ⟨trivial, rfl, ⟨next, otherNext, view?_setView_self here _, view?_setView_self there _,
      nextAgree, nextReadAt.trans sameReadAt⟩, isolates.visible, isolates.opened,
      isolates.available⟩
  · have inside : inRow = true := by simpa [Operation.fetchesColumn] using staysInRow
    subst inside
    rcases agree.fetchColumn online isolates.available visible with
      ⟨column, next, otherNext, fetched, otherFetched, nextAgree, nextReadAt⟩
    simp only [perform, here, there, fetched, otherFetched]
    exact ⟨trivial, rfl, ⟨next, otherNext, view?_setView_self here _, view?_setView_self there _,
      nextAgree, nextReadAt.trans sameReadAt⟩, isolates.visible, isolates.opened,
      isolates.available⟩

/-- One operation keeps the relation. Unless it is a call of the owner that succeeds, in which case
the owner alone gets the same answer, the owner alone does nothing. -/
theorem Isolates.perform (isolates : Isolates readAt number inRow cluster alone)
    {operation : Operation} {rest : List Operation} (kept : operation ≠ .release number)
    (room : cluster.HasRoomFor [operation])
    (inRows : Call.stayInRows inRow (Call.onView number (cluster.transcript (operation :: rest))) =
      true) :
    ∃ inRowNext aloneNext,
      Isolates readAt number inRowNext (cluster.perform operation).2 aloneNext ∧
        Call.stayInRows inRowNext
          (Call.onView number ((cluster.perform operation).2.transcript rest)) = true ∧
        (Call.answered (Call.onView number (cluster.transcript (operation :: rest))) =
            Call.answered (Call.onView number ((cluster.perform operation).2.transcript rest)) ∧
          aloneNext = alone ∨
        Call.answered (Call.onView number (cluster.transcript (operation :: rest))) =
            (operation, (alone.perform operation).1) ::
              Call.answered (Call.onView number ((cluster.perform operation).2.transcript rest)) ∧
          aloneNext = (alone.perform operation).2) := by
  cases own : operation.fetchesFrom number with
  | false =>
      have elsewhere : operation.touches number = false := by
        rw [Operation.touches_eq_fetchesFrom kept, own]
      have others : Call.onView number (cluster.transcript (operation :: rest)) =
          Call.onView number ((cluster.perform operation).2.transcript rest) := by
        simp [Call.onView, own]
      rw [others] at inRows ⊢
      exact ⟨inRow, alone, isolates.perform_other elsewhere room, inRows, Or.inl ⟨rfl, rfl⟩⟩
  | true =>
      have called : Call.onView number (cluster.transcript (operation :: rest)) =
          (operation, (cluster.perform operation).1) ::
            Call.onView number ((cluster.perform operation).2.transcript rest) := by
        simp [Call.onView, own]
      rw [called] at inRows ⊢
      simp only [Call.stayInRows, Bool.and_eq_true] at inRows
      rcases inRows with ⟨staysInRow, inRowsRest⟩
      cases online : cluster.engine.available with
      | false =>
          -- A failed call is not repeated by the owner alone, and it has changed nothing.
          have failed := isolates.perform_offline own staysInRow online
          rw [failed] at inRowsRest ⊢
          refine ⟨inRow, alone, isolates, inRowsRest, Or.inl ⟨?_, rfl⟩⟩
          simp [Call.answered, Answer.isFailure]
      | true =>
          rcases isolates.perform_own own staysInRow online with ⟨sameAnswer, succeeded, next⟩
          refine ⟨_, _, next, inRowsRest, Or.inr ⟨?_, rfl⟩⟩
          rw [← sameAnswer]
          simp [Call.answered, succeeded]

/-- The calls of the owner that succeed are answered as in the run of these calls alone. -/
theorem Isolates.answered_alone (isolates : Isolates readAt number inRow cluster alone)
    {session : List Operation} (kept : .release number ∉ session)
    (room : cluster.HasRoomFor session)
    (inRows : Call.stayInRows inRow (Call.onView number (cluster.transcript session)) = true) :
    (alone.performAll
        ((Call.answered (Call.onView number (cluster.transcript session))).map Prod.fst)).1 =
      (Call.answered (Call.onView number (cluster.transcript session))).map Prod.snd := by
  induction session generalizing cluster alone inRow with
  | nil => rfl
  | cons operation rest ih =>
      rcases room.cons with ⟨roomFirst, roomRest⟩
      simp only [List.mem_cons, not_or] at kept
      rcases isolates.perform (Ne.symm kept.1) roomFirst inRows with
        ⟨inRowNext, aloneNext, next, inRowsRest, ⟨calls, same⟩ | ⟨calls, same⟩⟩
      · rw [calls, ← same]
        exact ih next kept.2 roomRest inRowsRest
      · rw [calls, List.map_cons, List.map_cons, performAll_cons, ← same]
        exact congrArg _ (ih next kept.2 roomRest inRowsRest)

theorem Isolates.performAll (isolates : Isolates readAt number inRow cluster alone)
    {earlier later : List Operation} (kept : .release number ∉ earlier)
    (room : cluster.HasRoomFor earlier)
    (inRows : Call.stayInRows inRow (Call.onView number (cluster.transcript (earlier ++ later))) =
      true) :
    ∃ inRowNext aloneNext,
      Isolates readAt number inRowNext (cluster.performAll earlier).2 aloneNext ∧
        Call.stayInRows inRowNext
          (Call.onView number ((cluster.performAll earlier).2.transcript later)) = true := by
  induction earlier generalizing cluster alone inRow with
  | nil => exact ⟨inRow, alone, isolates, inRows⟩
  | cons operation rest ih =>
      rcases room.cons with ⟨roomFirst, roomRest⟩
      simp only [List.mem_cons, not_or] at kept
      rcases isolates.perform (Ne.symm kept.1) roomFirst inRows with
        ⟨inRowNext, aloneNext, next, inRowsRest, _⟩
      exact ih next kept.2 roomRest inRowsRest

theorem view?_opened {query : Query} {opened : Cluster}
    (opening : cluster.perform (.openView query) = (.opened number readAt, opened)) :
    opened.view? number = some ⟨⟨readAt, query, query.rows.lower, query.rows.isEmpty⟩, none⟩ ∧
      opened.engine.available = true ∧ ¬ opened.engine.clock < readAt := by
  cases available : cluster.engine.available with
  | false => simp [Cluster.perform, Engine.openSnapshot, Engine.readClock, available] at opening
  | true =>
      simp only [Cluster.perform, Engine.openSnapshot, Engine.readClock, available, if_true,
        Prod.mk.injEq, Answer.opened.injEq] at opening
      rcases opening with ⟨⟨rfl, rfl⟩, rfl⟩
      exact ⟨by simp [view?], available, StrictTotalOrder.irrefl _⟩

theorem isolates_opened {query : Query} {opened : Cluster}
    (opening : cluster.perform (.openView query) = (.opened number readAt, opened)) :
    Isolates readAt number false opened opened := by
  rcases view?_opened opening with ⟨here, available, past⟩
  exact ⟨⟨_, _, here, here, ⟨rfl, by simp⟩, rfl⟩, rfl, past, available⟩

/-- Snapshot isolation with lossless retries. The owner of a view is told, by the calls that
succeed, what these calls are answered with when nobody else does anything; and a call fails exactly
when the engine is offline, in which case it leaves everything as it was. -/
theorem view_reads_as_if_alone (history session : List Operation) (query : Query)
    (readAt : Timestamp) {opened : Cluster}
    (opening : (fresh.performAll history).2.perform (.openView query) =
      (.opened number readAt, opened))
    (kept : .release number ∉ session)
    (room : fresh.HasRoomFor (history ++ .openView query :: session))
    (inRows : Call.stayInRows false (Call.onView number (opened.transcript session)) = true) :
    (opened.performAll
        ((Call.answered (Call.onView number (opened.transcript session))).map Prod.fst)).1 =
      (Call.answered (Call.onView number (opened.transcript session))).map Prod.snd ∧
    ∀ earlier call later, session = earlier ++ call :: later →
      call.fetchesFrom number = true →
        ((opened.performAll earlier).2.engine.available = true →
          ((opened.performAll earlier).2.perform call).1.isFailure = false) ∧
        ((opened.performAll earlier).2.engine.available = false →
          (opened.performAll earlier).2.perform call =
            (.failed Engine.offline, (opened.performAll earlier).2)) := by
  have isolates := isolates_opened opening
  have roomSession : opened.HasRoomFor session := by
    have afterHistory := (hasRoomFor_append.1 room).2.cons.2
    rw [opening] at afterHistory
    exact afterHistory
  refine ⟨isolates.answered_alone kept roomSession inRows, ?_⟩
  rintro earlier call later rfl own
  have keptEarlier : .release number ∉ earlier := fun member => kept (List.mem_append_left _ member)
  rcases isolates.performAll keptEarlier (hasRoomFor_append.1 roomSession).1 inRows with
    ⟨inRow, alone, isolatesThen, inRowsThen⟩
  have staysInRow : (inRow || !call.fetchesColumn) = true := by
    simp only [transcript_cons, Call.onView, List.filter_cons, own, if_true, Call.stayInRows,
      Bool.and_eq_true] at inRowsThen
    exact inRowsThen.1
  constructor
  · intro online
    exact (isolatesThen.perform_own own staysInRow online).2.1
  · intro offline
    exact isolatesThen.perform_offline own staysInRow offline

/-- Two commits that leave two columns of one row. -/
def twoColumns : List Operation :=
  [.commit [.set ⟨[1], ⟨[10], []⟩⟩ [7], .set ⟨[1], ⟨[11], []⟩⟩ [8], .set ⟨[2], ⟨[10], []⟩⟩ [9]],
    .commit [.delete ⟨[2], ⟨[10], []⟩⟩, .set ⟨[1], ⟨[10], []⟩⟩ [6]]]

/-- The reader of view 0 meets a commit to all that it reads, an outage and another view. -/
def disturbedReads : List Operation :=
  [.fetchRow 0,
    .commit [.set ⟨[1], ⟨[10], []⟩⟩ [1], .delete ⟨[1], ⟨[11], []⟩⟩, .set ⟨[2], ⟨[10], []⟩⟩ [2]],
    .setAvailable false, .fetchColumn 0, .setAvailable true, .fetchColumn 0,
    .openView ⟨.all, .empty⟩, .fetchRow 1, .fetchColumn 0, .readClock, .fetchColumn 0, .fetchRow 0]

theorem disturbedReads_as_if_alone :
    ∃ opened, (fresh.performAll twoColumns).2.perform (.openView ⟨.all, .empty⟩) =
        (.opened 0 ⟨3⟩, opened) ∧
      .release 0 ∉ disturbedReads ∧
      fresh.HasRoomFor (twoColumns ++ .openView ⟨.all, .empty⟩ :: disturbedReads) ∧
      Call.stayInRows false (Call.onView 0 (opened.transcript disturbedReads)) = true ∧
      (opened.performAll
          ((Call.answered (Call.onView 0 (opened.transcript disturbedReads))).map Prod.fst)).1 =
        (Call.answered (Call.onView 0 (opened.transcript disturbedReads))).map Prod.snd ∧
      (Call.answered (Call.onView 0 (opened.transcript disturbedReads))).map Prod.snd =
        [.row (some [1]), .column (some (⟨[10], []⟩, [6])), .column (some (⟨[11], []⟩, [8])),
          .column none, .row none] := by
  refine ⟨((fresh.performAll twoColumns).2.perform (.openView ⟨.all, .empty⟩)).2, by decide,
    by decide, by decide, by decide, ?_, by decide⟩
  exact (view_reads_as_if_alone twoColumns disturbedReads ⟨.all, .empty⟩ ⟨3⟩ (by decide)
    (by decide) (by decide) (by decide)).1

end Cluster

end DataflowOps
