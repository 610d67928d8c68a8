import Mathlib.Data.List.Dedup
import Mathlib.Data.Nat.Find
import DataflowOps.Proofs.History
import DataflowOps.Proofs.ScanWalk

/-!
# Scans find what the history left

A scan of a store in memory collects the entries that the commits before its opening left there,
while other clients act right after each entry. It collects all of them if every fetch finds the
engine available, and otherwise those before the first fetch that does not.
-/

namespace DataflowOps

namespace ScanHook

/-- The operations that wait for a number of accepted entries. -/
def due (hooks : List ScanHook) (accepted : Nat) : List Operation :=
  (hooks.filter fun hook => hook.entries = accepted).flatMap operations

/-- The operations performed while, after those accepted already, `count` more entries are. -/
def following (hooks : List ScanHook) : (accepted : Nat) → (count : Nat) → List Operation
  | _, 0 => []
  | accepted, count + 1 => due hooks (accepted + 1) ++ following hooks (accepted + 1) count

end ScanHook

namespace HookedCollection

theorem runHooks_snd (accepted : Nat) (cluster : Cluster) (hooks : List ScanHook) :
    (runHooks accepted cluster hooks).2 =
      (cluster.performAll (ScanHook.due hooks accepted)).2 := by
  induction hooks generalizing cluster with
  | nil => rfl
  | cons hook rest ih =>
      by_cases waits : hook.entries = accepted
      · simp only [runHooks, waits, if_true, ih, ScanHook.due, List.filter_cons, decide_true,
          List.flatMap_cons, Cluster.performAll_append]
      · simp only [runHooks, waits, if_false, ih, ScanHook.due, List.filter_cons, decide_false,
          Bool.false_eq_true]

/-- A collection without a limit that holds some entries. -/
def holding (taken : List Entry) (hooks : List ScanHook) (answers : List (List Answer)) :
    HookedCollection :=
  ⟨⟨none, taken⟩, hooks, answers⟩

theorem accept_holding (entry : Entry) (cluster : Cluster) (taken : List Entry)
    (hooks : List ScanHook) (answers : List (List Answer)) :
    ∃ events moreAnswers, accept entry cluster (holding taken hooks answers) =
      (⟨true, events⟩, (cluster.performAll (ScanHook.due hooks (taken.length + 1))).2,
        holding (taken ++ [entry]) hooks moreAnswers) := by
  have length : (taken ++ [entry]).length = taken.length + 1 := by simp
  rw [← runHooks_snd, ← length]
  exact ⟨_, _, rfl⟩

variable {left taken : List Entry} {cluster : Cluster} {hooks : List ScanHook}
  {answers : List (List Answer)}

theorem undisturbed_holding {readAt : Timestamp} {visible : List Entry}
    (sees : cluster.engine.visibleAt readAt = visible) (past : ¬ cluster.engine.clock < readAt)
    (room : cluster.HasRoomFor (ScanHook.following hooks taken.length left.length)) :
    ScannedCluster.Undisturbed accept readAt visible left cluster
      (holding taken hooks answers) := by
  induction left generalizing taken cluster answers with
  | nil => exact sees
  | cons entry rest ih =>
      refine ⟨sees, ?_⟩
      intro _
      rcases accept_holding entry cluster taken hooks answers with ⟨events, moreAnswers, accepted⟩
      rcases Cluster.hasRoomFor_append.1 room with ⟨roomNow, roomLater⟩
      rcases Cluster.visibleAt_performAll past roomNow with ⟨same, pastThen⟩
      rw [accepted]
      refine ih (same.trans sees) pastThen ?_
      simpa using roomLater

open ScannedCluster in
theorem offer_cons (available : cluster.engine.available = true) (entry : Entry)
    (rest : List Entry) (last : Option Bytes) (progress : ScanProgress) (taken : List Entry)
    (hooks : List ScanHook) (answers : List (List Answer)) :
    ∃ events moreAnswers, offer accept (entry :: rest) last progress cluster
        (holding taken hooks answers) =
      (offer accept rest (some entry.row)
        ⟨progress.entries + 1, progress.rows + (if last = some entry.row then 0 else 1),
          progress.elapsed⟩
        (cluster.performAll (ScanHook.due hooks (taken.length + 1))).2
        (holding (taken ++ [entry]) hooks moreAnswers)).after events := by
  rcases accept_holding entry cluster taken hooks answers with ⟨events, moreAnswers, accepted⟩
  refine ⟨events, moreAnswers, ?_⟩
  simp only [offer, available, if_true, accepted]
  split <;> rfl

/-- Rows that begin in a list of entries, after an entry of the row `last`. -/
def rowsBegun : (last : Option Bytes) → List Entry → Nat
  | _, [] => 0
  | last, entry :: rest =>
    (if last = some entry.row then 0 else 1) + rowsBegun (some entry.row) rest

/-- In sorted entries, as many rows begin as there are different ones. -/
theorem rowsBegun_eq_length_dedup {entries : List Entry} (ascending : Entry.Ascending entries) :
    rowsBegun none entries = (entries.map Entry.row).dedup.length := by
  induction entries with
  | nil => rfl
  | cons first rest ih =>
      rcases List.pairwise_cons.1 ascending with ⟨firstBefore, restAscending⟩
      have counted := ih restAscending
      cases rest with
      | nil => rfl
      | cons second rest =>
          by_cases sameRow : first.row = second.row
          · rw [List.map_cons, List.dedup_cons_of_mem (by simp [sameRow]), ← counted]
            simp [rowsBegun, sameRow]
          · have alone : first.row ∉ ((second :: rest).map Entry.row) := by
              intro member
              rcases List.mem_map.1 member with ⟨other, otherMember, same⟩
              have firstNotAfter := Entry.row_not_lt_of_cell_lt
                (firstBefore second List.mem_cons_self)
              have after := StrictTotalOrder.lt_of_not_lt firstNotAfter (Ne.symm sameRow)
              exact Entry.Ascending.row_not_lt_of_mem restAscending other otherMember (same ▸ after)
            rw [List.map_cons, List.dedup_cons_of_notMem alone, List.length_cons, ← counted]
            simp [rowsBegun, sameRow]
            omega

open ScannedCluster in
/-- As long as the engine is available, entries are collected one after the other. -/
theorem offer_eq_offer_drop {count : Nat} (within : count ≤ left.length) (last : Option Bytes)
    (progress : ScanProgress) (answers : List (List Answer))
    (available : ∀ earlier < count, (cluster.performAll
      (ScanHook.following hooks taken.length earlier)).2.engine.available = true) :
    ∃ lastThen events moreAnswers, offer accept left last progress cluster
        (holding taken hooks answers) =
      (offer accept (left.drop count) lastThen
        ⟨progress.entries + count, progress.rows + rowsBegun last (left.take count),
          progress.elapsed⟩
        (cluster.performAll (ScanHook.following hooks taken.length count)).2
        (holding (taken ++ left.take count) hooks moreAnswers)).after events := by
  induction count generalizing left taken cluster answers last progress with
  | zero => exact ⟨last, [], answers, by simp [ScanRun.after, rowsBegun, ScanHook.following]⟩
  | succ count ih =>
      cases left with
      | nil => simp at within
      | cons entry rest =>
          have now : cluster.engine.available = true := available 0 (Nat.succ_pos _)
          have length : (taken ++ [entry]).length = taken.length + 1 := by simp
          have later : ∀ earlier < count, ((cluster.performAll
              (ScanHook.due hooks (taken.length + 1))).2.performAll (ScanHook.following hooks
                (taken ++ [entry]).length earlier)).2.engine.available = true := by
            intro earlier before
            have reached := available (earlier + 1) (Nat.succ_lt_succ before)
            rw [ScanHook.following, Cluster.performAll_append] at reached
            rw [length]
            exact reached
          rcases offer_cons now entry rest last progress taken hooks answers with
            ⟨events, moreAnswers, collected⟩
          rcases ih (Nat.le_of_succ_le_succ within) (some entry.row) _ _ later with
            ⟨lastThen, laterEvents, laterAnswers, rest⟩
          refine ⟨lastThen, events ++ laterEvents, laterAnswers, ?_⟩
          rw [collected, rest, ScanHook.following, Cluster.performAll_append, length]
          simp [ScanRun.after, rowsBegun, Nat.add_assoc, Nat.add_comm, Nat.add_left_comm]

theorem offer_of_available (last : Option Bytes) (progress : ScanProgress) (taken : List Entry)
    (answers : List (List Answer)) (available : ∀ count ≤ left.length, (cluster.performAll
      (ScanHook.following hooks taken.length count)).2.engine.available = true) :
    let run := ScannedCluster.offer accept left last progress cluster
      (holding taken hooks answers)
    run.state.sink.collection.entries = taken ++ left ∧
      run.result = .ok ⟨progress.entries + left.length, progress.rows + rowsBegun last left,
        if progress.rows + rowsBegun last left = 0 then .noData else .completed⟩ := by
  intro run
  rcases offer_eq_offer_drop (Nat.le_refl _) last progress answers
    (fun earlier before => available earlier (Nat.le_of_lt before)) with
    ⟨lastThen, events, moreAnswers, collected⟩
  simp only [run, collected, List.drop_length, List.take_length, ScannedCluster.offer,
    available _ (Nat.le_refl _), if_true]
  exact ⟨rfl, rfl⟩

theorem offer_of_outage {count : Nat} (within : count ≤ left.length) (last : Option Bytes)
    (progress : ScanProgress) (taken : List Entry) (answers : List (List Answer))
    (available : ∀ earlier < count, (cluster.performAll
      (ScanHook.following hooks taken.length earlier)).2.engine.available = true)
    (offline : (cluster.performAll
      (ScanHook.following hooks taken.length count)).2.engine.available = false) :
    let run := ScannedCluster.offer accept left last progress cluster
      (holding taken hooks answers)
    run.state.sink.collection.entries = taken ++ left.take count ∧
      run.result = .error ⟨Engine.offline, progress.entries + count⟩ := by
  intro run
  rcases offer_eq_offer_drop within last progress answers available with
    ⟨lastThen, events, moreAnswers, collected⟩
  simp only [run, collected, ScannedCluster.offer_of_offline offline]
  exact ⟨rfl, rfl⟩

end HookedCollection

/-- The entries that a query asks for, of those that a history leaves in a fresh store. -/
def Cluster.entriesLeftBy (history : List Operation) (query : Query) : List Entry :=
  (Contents.afterAll (Commit.changes (Commit.among (fresh.transcript history)))).listing query

namespace ScannedCluster

/-- Whether the engine is available, in a scan that follows a history, to the fetch after a number
of accepted entries. -/
def onlineAfter (history : List Operation) (query : Query) (hooks : List ScanHook)
    (accepted : Nat) : Bool :=
  (Cluster.fresh.performAll
    (history ++ .openView query :: ScanHook.following hooks 0 accepted)).2.engine.available

variable {history : List Operation} {query : Query} {hooks : List ScanHook}

theorem filter_visibleAt_opened (room : Cluster.fresh.HasRoomFor (history ++ [.openView query]))
    (available : (Cluster.fresh.performAll history).2.engine.available = true) :
    ((opened (Cluster.fresh.performAll history).2).engine.visibleAt
        (Cluster.fresh.performAll history).2.engine.clock.next).filter query.covers =
      Cluster.entriesLeftBy history query := by
  rcases Cluster.hasRoomFor_append.1 room with ⟨roomHistory, roomOpening⟩
  have records := Cluster.records_performAll Engine.records_fresh roomHistory
  have seen : ∀ commit ∈ Commit.among (Cluster.fresh.transcript history),
      ¬ (Cluster.fresh.performAll history).2.engine.clock.next < commit.1 := by
    intro commit member
    exact StrictTotalOrder.asymm (Engine.lt_clock_next (records.past commit member)
      (roomOpening.next available))
  exact records.filter_visibleAt seen query

theorem engine_perform_openView {cluster : Cluster} (available : cluster.engine.available = true) :
    (cluster.perform (.openView query)).2.engine = (opened cluster).engine := by
  rw [(cluster.perform_spec _).1]
  simp [Engine.after, Engine.readClock, available, opened]

theorem onlineAfter_eq (available : (Cluster.fresh.performAll history).2.engine.available = true)
    (accepted : Nat) :
    onlineAfter history query hooks accepted =
      ((opened (Cluster.fresh.performAll history).2).performAll
        (ScanHook.following hooks 0 accepted)).2.engine.available := by
  rw [onlineAfter, Cluster.performAll_append, Cluster.performAll_cons,
    (Cluster.performAll_congr (engine_perform_openView available) _).1]

theorem mem_entriesLeftBy_iff {entry : Entry} :
    entry ∈ Cluster.entriesLeftBy history query ↔
      query.rows.contains entry.row = true ∧ query.selects entry.column = true ∧
        Change.lastEffect entry.cell
            (Commit.changes (Commit.among (Cluster.fresh.transcript history))) =
          some (some entry.value) := by
  rw [Cluster.entriesLeftBy, Contents.mem_listing_afterAll_iff, Query.covers, Bool.and_eq_true,
    and_assoc]

theorem entriesLeftBy_ascending : Entry.Ascending (Cluster.entriesLeftBy history query) :=
  Contents.listing_ascending

theorem scan_eq_offer_entriesLeftBy (timeout : Nat)
    (room : Cluster.fresh.HasRoomFor (history ++ .openView query ::
      ScanHook.following hooks 0 (Cluster.entriesLeftBy history query).length))
    (available : (Cluster.fresh.performAll history).2.engine.available = true) :
    scan HookedCollection.accept timeout query (Cluster.fresh.performAll history).2
        ⟨{}, hooks, []⟩ =
      some ((offer HookedCollection.accept (Cluster.entriesLeftBy history query) none {}
        (opened (Cluster.fresh.performAll history).2)
          (HookedCollection.holding [] hooks [])).after
            [.scanStarted query.rows query.patterns.size]) := by
  rcases Cluster.hasRoomFor_append.1 room with ⟨roomHistory, roomLater⟩
  rcases roomLater.cons with ⟨roomOpening, roomHooks⟩
  rw [Cluster.hasRoomFor_congr (engine_perform_openView available)] at roomHooks
  have left := filter_visibleAt_opened
    (Cluster.hasRoomFor_append.2 ⟨roomHistory, roomOpening⟩) available
  rw [← left] at roomHooks ⊢
  exact scan_eq_offer available timeout query
    (HookedCollection.undisturbed_holding rfl (StrictTotalOrder.irrefl _) roomHooks)

/-- The scan collects everything if every fetch finds the engine available, and otherwise what
precedes the first fetch that does not. -/
theorem scan_ends (timeout : Nat)
    (room : Cluster.fresh.HasRoomFor (history ++ .openView query ::
      ScanHook.following hooks 0 (Cluster.entriesLeftBy history query).length)) :
    ∃ run, scan HookedCollection.accept timeout query (Cluster.fresh.performAll history).2
        ⟨{}, hooks, []⟩ = some run ∧
      ((∀ accepted ≤ (Cluster.entriesLeftBy history query).length,
          onlineAfter history query hooks accepted = true) →
        run.state.sink.collection.entries = Cluster.entriesLeftBy history query ∧
          run.result = .ok ⟨(Cluster.entriesLeftBy history query).length,
            ((Cluster.entriesLeftBy history query).map Entry.row).dedup.length,
            if Cluster.entriesLeftBy history query = [] then .noData else .completed⟩) ∧
      ∀ accepted ≤ (Cluster.entriesLeftBy history query).length,
        onlineAfter history query hooks accepted = false →
        (∀ earlier < accepted, onlineAfter history query hooks earlier = true) →
          run.state.sink.collection.entries =
              (Cluster.entriesLeftBy history query).take accepted ∧
            run.result = .error ⟨Engine.offline, accepted⟩ := by
  cases available : (Cluster.fresh.performAll history).2.engine.available with
  | false =>
      have offline : onlineAfter history query hooks 0 = false := by
        rw [onlineAfter, Cluster.performAll_append, Cluster.performAll_cons]
        simp [ScanHook.following, (Cluster.perform_spec _ _).1, Engine.after, Engine.readClock,
          available]
      refine ⟨_, scan_of_offline available timeout query, ?_, ?_⟩
      · intro online
        rw [online 0 (Nat.zero_le _)] at offline
        cases offline
      · intro accepted _ _ online
        cases accepted with
        | zero => exact ⟨rfl, rfl⟩
        | succ accepted =>
            rw [online 0 (Nat.succ_pos _)] at offline
            cases offline
  | true =>
      refine ⟨_, scan_eq_offer_entriesLeftBy timeout room available, ?_, ?_⟩
      · intro online
        simp only [onlineAfter_eq available] at online
        rcases HookedCollection.offer_of_available none {} [] [] online with ⟨collected, result⟩
        refine ⟨collected, result.trans ?_⟩
        simp only [Nat.zero_add, HookedCollection.rowsBegun_eq_length_dedup entriesLeftBy_ascending,
          List.length_eq_zero_iff, List.dedup_eq_nil, List.map_eq_nil_iff]
      · intro accepted within offline online
        simp only [onlineAfter_eq available] at offline online
        rcases HookedCollection.offer_of_outage within none {} [] [] online offline with
          ⟨collected, result⟩
        refine ⟨collected, result.trans ?_⟩
        rw [Nat.zero_add]

/-- With other clients acting after each entry, a scan of what a history left hands out all of it if
every fetch finds the engine available, and otherwise what precedes the first fetch that fails. -/
theorem scan_collects_entriesLeftBy (history : List Operation) (query : Query) (timeout : Nat)
    (hooks : List ScanHook)
    (room : Cluster.fresh.HasRoomFor (history ++ .openView query ::
      ScanHook.following hooks 0 (Cluster.entriesLeftBy history query).length)) :
    ∃ run, scan HookedCollection.accept timeout query (Cluster.fresh.performAll history).2
        ⟨{}, hooks, []⟩ = some run ∧
      Entry.Ascending (Cluster.entriesLeftBy history query) ∧
      (∀ entry, entry ∈ Cluster.entriesLeftBy history query ↔
        query.rows.contains entry.row = true ∧ query.selects entry.column = true ∧
          Change.lastEffect entry.cell
              (Commit.changes (Commit.among (Cluster.fresh.transcript history))) =
            some (some entry.value)) ∧
      run.state.sink.collection.entries <+: Cluster.entriesLeftBy history query ∧
      ((∀ accepted ≤ (Cluster.entriesLeftBy history query).length,
          onlineAfter history query hooks accepted = true) →
        run.state.sink.collection.entries = Cluster.entriesLeftBy history query ∧
          run.result = .ok ⟨(Cluster.entriesLeftBy history query).length,
            ((Cluster.entriesLeftBy history query).map Entry.row).dedup.length,
            if Cluster.entriesLeftBy history query = [] then .noData else .completed⟩) ∧
      ∀ accepted ≤ (Cluster.entriesLeftBy history query).length,
        onlineAfter history query hooks accepted = false →
        (∀ earlier < accepted, onlineAfter history query hooks earlier = true) →
          run.state.sink.collection.entries =
              (Cluster.entriesLeftBy history query).take accepted ∧
            run.result = .error ⟨Engine.offline, accepted⟩ := by
  rcases scan_ends timeout room with ⟨run, ran, complete, cut⟩
  refine ⟨run, ran, entriesLeftBy_ascending, fun _ => mem_entriesLeftBy_iff, ?_, complete, cut⟩
  -- What is collected depends on the first fetch that finds the engine offline, if there is one.
  by_cases outage : ∃ accepted, accepted ≤ (Cluster.entriesLeftBy history query).length ∧
      onlineAfter history query hooks accepted = false
  · rcases Nat.find_spec outage with ⟨within, offline⟩
    have online : ∀ earlier < Nat.find outage, onlineAfter history query hooks earlier = true := by
      intro earlier before
      have notOutage := Nat.find_min outage before
      simpa [Nat.le_of_lt (Nat.lt_of_lt_of_le before within)] using notOutage
    rw [(cut _ within offline online).1]
    exact List.take_prefix ..
  · have online : ∀ accepted ≤ (Cluster.entriesLeftBy history query).length,
        onlineAfter history query hooks accepted = true := by
      simpa using outage
    exact (complete online).1.symm ▸ List.prefix_refl _

/-- Two rows, of which the first has a value that was overwritten and one that was deleted. -/
def overwrittenRow : List Operation :=
  [.commit [.set ⟨[1], ⟨[10], []⟩⟩ [7], .set ⟨[1], ⟨[11], []⟩⟩ [8], .set ⟨[2], ⟨[10], []⟩⟩ [9]],
    .readClock, .commit [.delete ⟨[1], ⟨[11], []⟩⟩, .set ⟨[1], ⟨[10], []⟩⟩ [6]]]

/-- Another client deletes what the scan is still to hand out and sets a column of the row it is
in. -/
def removalAfterFirst : List ScanHook :=
  [⟨1, [.commit [.delete ⟨[2], ⟨[10], []⟩⟩, .set ⟨[1], ⟨[12], []⟩⟩ [5]], .openView ⟨.all, .empty⟩]⟩]

theorem scan_collects_entriesLeftBy_overwrittenRow :
    Cluster.fresh.HasRoomFor (overwrittenRow ++ .openView ⟨.all, .empty⟩ ::
      ScanHook.following removalAfterFirst 0
        (Cluster.entriesLeftBy overwrittenRow ⟨.all, .empty⟩).length) ∧
    ∃ run, scan HookedCollection.accept 0 ⟨.all, .empty⟩ (Cluster.fresh.performAll overwrittenRow).2
        ⟨{}, removalAfterFirst, []⟩ = some run ∧
      run.state.sink.collection.entries =
        [⟨[1], ⟨[10], []⟩, [6]⟩, ⟨[2], ⟨[10], []⟩, [9]⟩] ∧
      run.result = .ok ⟨2, 2, .completed⟩ := by
  refine ⟨by decide, ?_⟩
  rcases scan_collects_entriesLeftBy overwrittenRow ⟨.all, .empty⟩ 0 removalAfterFirst
    (by decide) with ⟨run, ran, _, _, _, complete, _⟩
  rcases complete (by decide) with ⟨collected, result⟩
  exact ⟨run, ran, collected.trans (by decide), result.trans (by decide)⟩

end ScannedCluster

end DataflowOps
