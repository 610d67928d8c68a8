import DataflowOps.Proofs.History

/-!
# The books of the engine

The answers of an engine account for its whole state. Its clock is the number of calls that took a
tick, and these were given the timestamps from one on; its versions are those that the commits among
these calls wrote, each under the timestamp of its commit; and the notifications that it counts are
the cells that were notified last rather than acknowledged. A call that fails changes nothing, and
none that succeeds touches what earlier commits wrote.
-/

namespace DataflowOps

namespace Change

/-- Whether a change notifies a cell or acknowledges it. -/
def noticeOn? (cell : CellAddress) : Change → Option Bool
  | notify target => if target = cell then some true else none
  | acknowledge target => if target = cell then some false else none
  | set .. | delete _ => none

/-- Whether the last change that notifies or acknowledges a cell notifies it. -/
def lastNotice (cell : CellAddress) (changes : List Change) : Option Bool :=
  changes.reverse.findSome? (noticeOn? cell)

theorem lastNotice_append (cell : CellAddress) (earlier later : List Change) :
    lastNotice cell (earlier ++ later) =
      (lastNotice cell later).or (lastNotice cell earlier) :=
  findSome?_reverse_append (noticeOn? cell) earlier later

theorem lastNotice_cons (cell : CellAddress) (change : Change) (later : List Change) :
    lastNotice cell (change :: later) =
      (lastNotice cell later).or (change.noticeOn? cell) :=
  findSome?_reverse_cons (noticeOn? cell) change later

end Change

namespace Commit

/-- The last notice of a cell with the timestamp of the commit that gave it. -/
def latestNotice (cell : CellAddress) (commits : List Commit) : Option (Timestamp × Bool) :=
  commits.reverse.findSome? fun commit => (Change.lastNotice cell commit.2).map (commit.1, ·)

theorem latestNotice_concat (cell : CellAddress) (commits : List Commit) (commit : Commit) :
    latestNotice cell (commits ++ [commit]) =
      ((Change.lastNotice cell commit.2).map (commit.1, ·)).or (latestNotice cell commits) := by
  cases noticed : Change.lastNotice cell commit.2 <;> simp [latestNotice, noticed]

theorem mem_of_latestNotice {cell : CellAddress} {commits : List Commit} {timestamp : Timestamp}
    {notified : Bool} (latest : latestNotice cell commits = some (timestamp, notified)) :
    ∃ batch, (timestamp, batch) ∈ commits := by
  rcases List.exists_of_findSome?_eq_some latest with ⟨⟨written, batch⟩, member, noticed⟩
  rcases Option.map_eq_some_iff.1 noticed with ⟨_, _, same⟩
  cases same
  exact ⟨batch, List.mem_reverse.1 member⟩

theorem lastNotice_changes (cell : CellAddress) (commits : List Commit) :
    Change.lastNotice cell (changes commits) = (latestNotice cell commits).map Prod.snd := by
  induction commits with
  | nil => rfl
  | cons commit rest ih =>
      have split : changes (commit :: rest) = commit.2 ++ changes rest := rfl
      have latest : latestNotice cell (commit :: rest) = (latestNotice cell rest).or
          ((Change.lastNotice cell commit.2).map (commit.1, ·)) :=
        findSome?_reverse_cons _ commit rest
      rw [split, Change.lastNotice_append, ih, latest]
      cases latestNotice cell rest with
      | none => cases Change.lastNotice cell commit.2 <;> rfl
      | some notice => rfl

end Commit

namespace Engine

/-- A batch leaves a notification of each cell that it notifies last, with its own timestamp, none
of those that it acknowledges last, and all others as they were. -/
theorem mem_notifications_foldl_applyChange {engine : Engine} {written timestamp : Timestamp}
    {batch : Batch} {cell : CellAddress} :
    (cell, timestamp) ∈ (batch.foldl (applyChange written) engine).notifications.entries ↔
      timestamp = written ∧ Change.lastNotice cell batch = some true ∨
        Change.lastNotice cell batch = none ∧
          (cell, timestamp) ∈ engine.notifications.entries := by
  induction batch generalizing engine with
  | nil => simp [Change.lastNotice]
  | cons change rest ih =>
      rw [List.foldl_cons, ih, Change.lastNotice_cons]
      cases change with
      | set target effect => simp [applyChange, Change.noticeOn?]
      | delete target => simp [applyChange, Change.noticeOn?]
      | notify target =>
          simp only [applyChange, OrderedMap.mem_entries_insert, Change.noticeOn?, Prod.mk.injEq]
          by_cases same : target = cell
          · cases Change.lastNotice cell rest <;> grind
          · simp [same, Ne.symm same]
      | acknowledge target =>
          simp only [applyChange, OrderedMap.mem_entries_erase, Change.noticeOn?]
          by_cases same : target = cell
          · cases Change.lastNotice cell rest <;> grind
          · simp [same, Ne.symm same]

section Records

variable {engine : Engine} {commits : List Commit}

theorem Records.eq_of_timestamp {commit other : Commit} (records : engine.Records commits)
    (member : commit ∈ commits) (otherMember : other ∈ commits) (same : commit.1 = other.1) :
    commit = other := by
  rcases List.getElem_of_mem member with ⟨index, within, rfl⟩
  rcases List.getElem_of_mem otherMember with ⟨place, inside, rfl⟩
  have ordered := List.pairwise_iff_getElem.1 records.ascending
  rcases Nat.lt_trichotomy index place with before | rfl | after
  · exact absurd same (StrictTotalOrder.ne_of_lt (ordered index place within inside before))
  · rfl
  · exact absurd same.symm (StrictTotalOrder.ne_of_lt (ordered place index inside within after))

/-- A commit has one version of each cell that it sets or deletes. -/
theorem Records.filter_entries {commit : Commit} (records : engine.Records commits)
    (member : commit ∈ commits) (cell : CellAddress) :
    engine.versions.entries.filter (·.1 = ⟨cell, commit.1⟩) =
      ((Change.lastEffect cell commit.2).map (⟨cell, commit.1⟩, ·)).toList := by
  have asymm (left right : VersionAddress × Option Bytes) (before : left.1 < right.1) :
      ¬ right.1 < left.1 :=
    StrictTotalOrder.asymm before
  have single : ((Change.lastEffect cell commit.2).map
      ((⟨cell, commit.1⟩, ·) : Option Bytes → VersionAddress × Option Bytes)).toList.Pairwise
        fun left right => left.1 < right.1 := by
    cases Change.lastEffect cell commit.2 with
    | none => exact List.Pairwise.nil
    | some effect => exact List.pairwise_singleton _ _
  apply eq_of_ascending asymm (engine.versions.ascending.filter _) single
  rintro ⟨⟨target, timestamp⟩, value⟩
  simp only [List.mem_filter, decide_eq_true_eq, VersionAddress.mk.injEq, Option.mem_toList,
    Option.map_eq_some_iff, Prod.mk.injEq, records.written]
  constructor
  · rintro ⟨⟨other, otherMember, written, effective⟩, rfl, rfl⟩
    rw [records.eq_of_timestamp otherMember member written] at effective
    exact ⟨value, effective, ⟨rfl, rfl⟩, rfl⟩
  · rintro ⟨effect, effective, ⟨rfl, rfl⟩, rfl⟩
    exact ⟨⟨commit, member, rfl, effective⟩, rfl, rfl⟩

end Records

/-- The notifications of an engine are the cells whose last notice notified them. -/
def Awaits (engine : Engine) (commits : List Commit) : Prop :=
  ∀ cell timestamp, (cell, timestamp) ∈ engine.notifications.entries ↔
    Commit.latestNotice cell commits = some (timestamp, true)

theorem awaits_fresh : Engine.fresh.Awaits [] := by
  intro cell timestamp
  simp [fresh, OrderedMap.empty, Commit.latestNotice]

end Engine

namespace Cluster

theorem tracks_awaits : Tracks Engine.Awaits where
  commit engine commits batch awaits _ := by
    intro cell timestamp
    rw [Engine.mem_notifications_foldl_applyChange, Commit.latestNotice_concat]
    have before := awaits cell timestamp
    cases Change.lastNotice cell batch with
    | none =>
        simp only [reduceCtorEq, and_false, false_or, true_and, Option.map_none, Option.none_or]
        exact before
    | some notified => simp [and_comm, eq_comm]
  still engine later commits awaits _ notifications _ := by
    intro cell timestamp
    rw [notifications]
    exact awaits cell timestamp

/-- The ticks that operations take are numbered on from the clock. -/
theorem timestamps_transcript {cluster : Cluster} {operations : List Operation}
    (room : cluster.HasRoomFor operations) :
    ((cluster.transcript operations).filterMap (·.2.timestamp?)).map (·.ticks.toNat) =
      List.range' (cluster.engine.clock.ticks.toNat + 1)
        (Answer.ticks (cluster.performAll operations).1) := by
  induction operations generalizing cluster with
  | nil => rfl
  | cons operation rest ih =>
      rcases room.cons with ⟨first, later⟩
      have clock := clock_perform first
      have numbered := ih later
      simp only [Answer.ticks_cons, Answer.ticks_nil, Nat.add_zero] at clock
      rw [clock] at numbered
      simp only [transcript_cons, performAll_cons, Answer.ticks_cons, List.filterMap_cons]
      cases reported : (cluster.perform operation).1.timestamp? with
      | none =>
          have still : (cluster.perform operation).1.tookTick = false := by
            rw [← Answer.isSome_timestamp?, reported]
            rfl
          simpa [still] using numbered
      | some timestamp =>
          have ticked : (cluster.perform operation).1.tookTick = true := by
            rw [← Answer.isSome_timestamp?, reported]
            rfl
          have next : timestamp.ticks.toNat = cluster.engine.clock.ticks.toNat + 1 := by
            rw [(cluster.perform_engine operation).2, Option.ite_none_right_eq_some] at reported
            rcases reported with ⟨taken, same⟩
            rw [← Option.some.inj same]
            exact Timestamp.next_toNat (first.next taken)
          simp only [ticked, if_true] at numbered ⊢
          rw [List.map_cons, numbered, next, Nat.add_comm 1, List.range'_succ]

/-- An engine that is online answers every call. -/
theorem perform_ne_failed {cluster : Cluster} (available : cluster.engine.available = true)
    (operation : Operation) (error : CallFailure) :
    (cluster.perform operation).1 ≠ .failed error := by
  cases operation with
  | commit batch => simp [perform, Engine.commit, available]
  | readClock => simp [perform, Engine.readClock, available]
  | countNotifications => simp [perform, Engine.countNotifications, available]
  | peekClock => simp [perform]
  | setAvailable available => simp [perform]
  | openView query => simp [perform, Engine.openSnapshot, Engine.readClock, available]
  | fetchRow number =>
      cases here : cluster.view? number with
      | none => simp [perform, here]
      | some view =>
          have answered : ∃ row next, view.fetchRow cluster.engine = (.ok row, next) := by
            cases ended : view.snapshot.atEnd with
            | true => simp [View.fetchRow, Snapshot.fetchRow, available, ended]
            | false =>
                simp only [View.fetchRow, Snapshot.fetchRow, available, ended]
                cases Snapshot.leastVisibleRow view.snapshot.continuation view.snapshot.query
                  view.snapshot.readAt cluster.engine <;> simp
          rcases answered with ⟨row, next, fetched⟩
          simp [perform, here, fetched]
  | fetchColumn number =>
      cases here : cluster.view? number with
      | none => simp [perform, here]
      | some view =>
          cases inRow : view.cursor with
          | none => simp [perform, here, View.fetchColumn, inRow]
          | some cursor =>
              simp [perform, here, View.fetchColumn, inRow, ColumnCursor.fetchColumn, available]
  | release number => simp [perform]

/-- Only an engine that is offline fails a call, and it changes nothing. -/
theorem perform_of_failed {cluster : Cluster} {operation : Operation} {error : CallFailure}
    (failed : (cluster.perform operation).1 = .failed error) :
    cluster.engine.available = false ∧ (cluster.perform operation).2 = cluster := by
  cases available : cluster.engine.available with
  | true => exact absurd failed (perform_ne_failed available operation error)
  | false =>
      refine ⟨rfl, ?_⟩
      cases operation with
      | commit batch => simp [perform, Engine.commit, available]
      | readClock => simp [perform, Engine.readClock, available]
      | countNotifications => simp [perform, Engine.countNotifications, available]
      | peekClock => rfl
      | setAvailable available => simp [perform] at failed
      | openView query => simp [perform, Engine.openSnapshot, Engine.readClock, available]
      | fetchRow number =>
          cases here : cluster.view? number with
          | none => simp [perform, here]
          | some view =>
              simp [perform, here, View.fetchRow_of_offline available, setView_self here]
      | fetchColumn number =>
          cases here : cluster.view? number with
          | none => simp [perform, here]
          | some view =>
              cases inRow : view.cursor with
              | none => simp [perform, here, View.fetchColumn, inRow, setView_self here]
              | some cursor =>
                  simp [perform, here, View.fetchColumn_of_offline available inRow,
                    setView_self here]
      | release number => simp [perform] at failed

end Cluster

/-- That the state of an engine is accounted for by the calls that were made to it. -/
structure Engine.AccountedBy (engine : Engine) (calls : List Call) : Prop where
  /-- The calls that take a tick are numbered from one on. -/
  numbered : (calls.filterMap (·.2.timestamp?)).map (·.ticks.toNat) =
    List.range' 1 engine.clock.ticks.toNat
  /-- A version is what the last change of its cell in the commit of its timestamp left there. -/
  versions : ∀ cell timestamp value, (⟨cell, timestamp⟩, value) ∈ engine.versions.entries ↔
    ∃ batch, (timestamp, batch) ∈ Commit.among calls ∧
      Change.lastEffect cell batch = some value
  /-- So a commit has one version of each cell that it sets or deletes, and none of others. -/
  versionsOfCommit : ∀ timestamp batch, (timestamp, batch) ∈ Commit.among calls → ∀ cell,
    engine.versions.entries.filter (·.1 = ⟨cell, timestamp⟩) =
      ((Change.lastEffect cell batch).map (⟨cell, timestamp⟩, ·)).toList
  notifications : ∀ cell timestamp, (cell, timestamp) ∈ engine.notifications.entries →
    ∃ batch, (timestamp, batch) ∈ Commit.among calls
  pastVersions : ∀ version ∈ engine.versions.keys, ¬ engine.clock < version.timestamp
  pastNotifications : ∀ entry ∈ engine.notifications.entries, ¬ engine.clock < entry.2
  /-- The notifications are as many as the cells that were last notified, not acknowledged. -/
  waiting : ∃ cells : List CellAddress, cells.Nodup ∧
    (∀ cell, cell ∈ cells ↔
      Change.lastNotice cell (Commit.changes (Commit.among calls)) = some true) ∧
    engine.notifications.size = cells.length

namespace Cluster

theorem accountedBy_transcript {history : List Operation} (room : fresh.HasRoomFor history) :
    (fresh.performAll history).2.engine.AccountedBy (fresh.transcript history) := by
  have records := records_performAll Engine.records_fresh room
  have awaits := tracks_awaits.performAll Engine.awaits_fresh room
  have clock := clock_performAll room
  have start : fresh.engine.clock.ticks.toNat = 0 := rfl
  rw [start, Nat.zero_add] at clock
  rw [List.nil_append] at records awaits
  constructor
  case numbered =>
    rw [timestamps_transcript room, start, clock]
  case versions =>
    intro cell timestamp value
    rw [records.written]
    constructor
    · rintro ⟨⟨_, batch⟩, member, rfl, effective⟩
      exact ⟨batch, member, effective⟩
    · rintro ⟨batch, member, effective⟩
      exact ⟨_, member, rfl, effective⟩
  case versionsOfCommit =>
    intro timestamp batch member cell
    exact records.filter_entries member cell
  case notifications =>
    intro cell timestamp member
    exact Commit.mem_of_latestNotice ((awaits cell timestamp).1 member)
  case pastVersions =>
    intro version stored
    rcases List.mem_map.1 stored with ⟨⟨⟨cell, timestamp⟩, value⟩, member, rfl⟩
    rcases (records.written cell timestamp value).1 member with ⟨commit, committed, rfl, _⟩
    exact records.past commit committed
  case pastNotifications =>
    rintro ⟨cell, timestamp⟩ member
    rcases Commit.mem_of_latestNotice ((awaits cell timestamp).1 member) with ⟨batch, committed⟩
    exact records.past _ committed
  case waiting =>
    refine ⟨(fresh.performAll history).2.engine.notifications.keys, OrderedMap.keys_nodup _, ?_, ?_⟩
    · intro cell
      rw [Commit.lastNotice_changes, Option.map_eq_some_iff, OrderedMap.keys, List.mem_map]
      constructor
      · rintro ⟨⟨_, timestamp⟩, member, rfl⟩
        exact ⟨_, (awaits _ timestamp).1 member, rfl⟩
      · rintro ⟨⟨timestamp, _⟩, latest, rfl⟩
        exact ⟨_, (awaits cell timestamp).2 latest, rfl⟩
    · rw [OrderedMap.keys, List.length_map, OrderedMap.size]

theorem shownAt_clock {engine : Engine} {calls : List Call} (accounted : engine.AccountedBy calls) :
    engine.shownAt engine.clock = engine.versions.entries := by
  apply List.filter_eq_self.2
  intro entry stored
  have past := accounted.pastVersions entry.1 (List.mem_map_of_mem stored)
  simp [Versions.shows, past]

/-- The state of an engine is accounted for by the calls made to it. The clock shows how many of
them took a tick, the count is that of the cells notified last, a call that fails changes nothing,
and no operation removes or alters what is stored already. -/
theorem state_accounted_for (history : List Operation) (operation : Operation)
    (room : fresh.HasRoomFor (history ++ [operation])) :
    (fresh.performAll history).2.engine.AccountedBy (fresh.transcript history) ∧
    (∃ reading, (fresh.performAll history).2.perform .peekClock =
        (.peeked reading, (fresh.performAll history).2) ∧
      reading.ticks.toNat = ((fresh.transcript history).filterMap (·.2.timestamp?)).length) ∧
    ((fresh.performAll history).2.engine.available = true →
      (fresh.performAll history).2.perform .countNotifications =
        (.count (fresh.performAll history).2.engine.notifications.size,
          (fresh.performAll history).2)) ∧
    (∀ error, ((fresh.performAll history).2.perform operation).1 = .failed error →
      (fresh.performAll history).2.engine.available = false ∧
        ((fresh.performAll history).2.perform operation).2 = (fresh.performAll history).2) ∧
    ((fresh.performAll history).2.perform operation).2.engine.shownAt
        (fresh.performAll history).2.engine.clock =
      (fresh.performAll history).2.engine.versions.entries := by
  rcases hasRoomFor_append.1 room with ⟨roomHistory, roomOperation⟩
  have accounted := accountedBy_transcript roomHistory
  refine ⟨accounted, ⟨_, rfl, ?_⟩, ?_, ?_, ?_⟩
  · have counted := congrArg List.length accounted.numbered
    rw [List.length_map, List.length_range'] at counted
    exact counted.symm
  · intro available
    simp [perform, Engine.countNotifications, available]
  · intro error
    exact perform_of_failed
  · rw [(shownAt_perform (StrictTotalOrder.irrefl _) roomOperation).1]
    exact shownAt_clock accounted

/-- Two commits that change, notify and acknowledge the same cells more than once, with a clock read
while the engine is offline. -/
def repeatedChanges : List Operation :=
  [.commit [.set ⟨[1], ⟨[10], []⟩⟩ [7], .delete ⟨[1], ⟨[10], []⟩⟩, .notify ⟨[1], ⟨[10], []⟩⟩,
      .acknowledge ⟨[2], ⟨[10], []⟩⟩, .notify ⟨[2], ⟨[10], []⟩⟩],
    .setAvailable false, .readClock, .setAvailable true,
    .commit [.set ⟨[1], ⟨[10], []⟩⟩ [8], .acknowledge ⟨[1], ⟨[10], []⟩⟩, .notify ⟨[3], ⟨[10], []⟩⟩,
      .notify ⟨[2], ⟨[10], []⟩⟩]]

theorem state_accounted_for_repeatedChanges :
    fresh.HasRoomFor (repeatedChanges ++ [.readClock]) ∧
      ((fresh.transcript repeatedChanges).filterMap (·.2.timestamp?)).map (·.ticks.toNat) =
        [1, 2] ∧
      (fresh.performAll repeatedChanges).2.perform .countNotifications =
        (.count 2, (fresh.performAll repeatedChanges).2) ∧
      ((fresh.performAll repeatedChanges).2.perform .readClock).2.engine.shownAt ⟨2⟩ =
        [(⟨⟨[1], ⟨[10], []⟩⟩, ⟨2⟩⟩, some [8]), (⟨⟨[1], ⟨[10], []⟩⟩, ⟨1⟩⟩, none)] := by
  have room : fresh.HasRoomFor (repeatedChanges ++ [.readClock]) := by decide
  rcases state_accounted_for repeatedChanges .readClock room with
    ⟨accounted, _, counts, _, kept⟩
  exact ⟨room, accounted.numbered.trans (by decide), (counts (by decide)).trans (by decide),
    kept.trans (by decide)⟩

end Cluster

end DataflowOps
