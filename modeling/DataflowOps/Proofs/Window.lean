import DataflowOps.Proofs.Operations
import DataflowOps.Wait.Attended

/-!
# What happens within a sample

A sample reads the clock, counts the notifications and reads the clock again, and other clients may
act in between. Every commit, clock read and opening takes a tick, so the two readings tell how many
of them there were: a sample that finds one tick between its readings finds only its own.
-/

namespace DataflowOps

namespace OrderedMap

variable {Key Value : Type} [LT Key]

theorem size_eq_zero_iff {map : OrderedMap Key Value} : map.size = 0 ↔ map.entries = [] :=
  List.length_eq_zero_iff

end OrderedMap

namespace AttendedCluster

/-- A cluster with what other clients do before each round trip to come. -/
abbrev Contended := AttendedCluster × List (List Operation)

def letAct : Contended → Contended
  | (attended, []) => (attended, [])
  | (attended, operations :: rest) =>
    ({ attended with cluster := (attended.cluster.performAll operations).2 }, rest)

/-- The source of samples, with other clients acting right before each round trip. -/
def contendedSource : BacklogSource Contended where
  readClock state :=
    let (attended, rest) := letAct state
    let (reply, attended) := source.readClock attended
    (reply, attended, rest)
  countOutstanding state :=
    let (attended, rest) := letAct state
    let (reply, attended) := source.countOutstanding attended
    (reply, attended, rest)
  sleepUntil instant state :=
    let (events, attended) := source.sleepUntil instant state.1
    (events, attended, state.2)

/-- The sample of a cluster, with other clients acting before and after the count. -/
def sampleAmid (before after : List Operation) (timeout now : Nat) (start : Cluster) :
    Timed BacklogSample Contended :=
  contendedSource.sample timeout now (⟨start, [], []⟩, [[], before, after])

/-- The cluster at the count of a sample, after other clients have acted since its first reading. -/
def atCount (start : Cluster) (before : List Operation) : Cluster :=
  ((start.perform .readClock).2.performAll before).2

def atEnd (start : Cluster) (before after : List Operation) : Cluster :=
  ((atCount start before).performAll after).2

/-- What other clients were told within a sample. -/
def answersWithin (start : Cluster) (before after : List Operation) : List Answer :=
  ((start.perform .readClock).2.performAll before).1 ++ ((atCount start before).performAll after).1

variable {start : Cluster} {before after : List Operation} {sample : BacklogSample}

theorem perform_readClock_snd :
    (start.perform .readClock).2 = { start with engine := start.engine.readClock.2 } := by
  simp only [Cluster.perform]
  rcases start.engine.readClock with ⟨error | timestamp, engine⟩ <;> rfl

theorem sampleAmid_result (timeout now : Nat) :
    (sampleAmid before after timeout now start).result =
      (do
        let first ← start.engine.readClock.1
        let outstanding ← (atCount start before).engine.countNotifications
        let second ← (atEnd start before after).engine.readClock.1
        return ⟨first, outstanding, second⟩) := by
  have counting : atCount start before =
      (({ start with engine := start.engine.readClock.2 } : Cluster).performAll before).2 := by
    rw [atCount, perform_readClock_snd]
  simp only [sampleAmid, BacklogSource.sample, contendedSource, letAct, source, Timed.receive,
    Reply.within_immediate, Cluster.performAll_nil]
  rw [← counting]
  cases start.engine.readClock.1 with
  | error error => rfl
  | ok first =>
      cases (atCount start before).engine.countNotifications with
      | error error => rfl
      | ok outstanding =>
          simp only [atEnd]
          cases ((atCount start before).performAll after).2.engine.readClock.1 <;> rfl

theorem of_sampleAmid_eq_ok {timeout now : Nat}
    (succeeded : (sampleAmid before after timeout now start).result = .ok sample) :
    start.engine.available = true ∧ (atEnd start before after).engine.available = true ∧
      sample = ⟨start.engine.clock.next, (atCount start before).engine.notifications.size,
        (atEnd start before after).engine.clock.next⟩ := by
  rw [sampleAmid_result] at succeeded
  rcases CallFailure.bind_eq_ok_iff.1 succeeded with ⟨first, firstRead, succeeded⟩
  rcases CallFailure.bind_eq_ok_iff.1 succeeded with ⟨outstanding, counted, succeeded⟩
  rcases CallFailure.bind_eq_ok_iff.1 succeeded with ⟨second, secondRead, succeeded⟩
  rcases Engine.readClock_fst_eq_ok_iff.1 firstRead with ⟨available, rfl⟩
  rcases Engine.countNotifications_eq_ok_iff.1 counted with ⟨_, rfl⟩
  rcases Engine.readClock_fst_eq_ok_iff.1 secondRead with ⟨availableThen, rfl⟩
  exact ⟨available, availableThen, (Except.ok.inj succeeded).symm⟩

/-- The two readings of a sample differ by the ticks taken in between and the second reading's
own. -/
theorem clock_atEnd_next (available : start.engine.available = true)
    (availableThen : (atEnd start before after).engine.available = true)
    (room : start.HasRoomFor (.readClock :: (before ++ .countNotifications :: (after ++
      [.readClock])))) :
    (atEnd start before after).engine.clock.next.ticks.toNat =
      start.engine.clock.next.ticks.toNat +
        Answer.ticks (answersWithin start before after) + 1 := by
  rcases room.cons with ⟨roomFirst, roomWithin⟩
  rcases Cluster.hasRoomFor_append.1 roomWithin with ⟨roomBefore, roomCount⟩
  rcases Cluster.hasRoomFor_append.1 roomCount.cons.2 with ⟨roomAfter, roomSecond⟩
  -- The count is listed in `room`, but it leaves the cluster as it was.
  have counted : ((atCount start before).perform .countNotifications).2 = atCount start before := by
    simp only [Cluster.perform]
    split <;> rfl
  have firstReading : (start.perform .readClock).2.engine.clock = start.engine.clock.next := by
    simp [perform_readClock_snd, Engine.readClock, available]
  have toCount := Cluster.clock_performAll roomBefore
  rw [firstReading] at toCount
  change (((atCount start before).perform .countNotifications).2).HasRoomFor after at roomAfter
  change ((((atCount start before).perform .countNotifications).2).performAll after).2.HasRoomFor
    [.readClock] at roomSecond
  rw [counted] at roomAfter roomSecond
  have toEnd := Cluster.clock_performAll roomAfter
  have secondReading : (atEnd start before after).engine.clock.next.ticks.toNat =
      (atEnd start before after).engine.clock.ticks.toNat + 1 :=
    Timestamp.next_toNat (roomSecond.next availableThen)
  rw [secondReading]
  simp only [atEnd, atCount, answersWithin, Answer.ticks_append] at toCount toEnd ⊢
  omega

/-- A sample shows quiescence exactly if nothing was outstanding at its count and no other client
took a tick between its readings. -/
theorem showsQuiescence_sampleAmid_iff {timeout now : Nat}
    (succeeded : (sampleAmid before after timeout now start).result = .ok sample)
    (room : start.HasRoomFor (.readClock :: (before ++ .countNotifications :: (after ++
      [.readClock])))) :
    sample.showsQuiescence 1 = true ↔
      (atCount start before).engine.notifications.entries = [] ∧
        ∀ answer ∈ answersWithin start before after, answer.tookTick = false := by
  rcases of_sampleAmid_eq_ok succeeded with ⟨available, availableThen, rfl⟩
  have readings := clock_atEnd_next available availableThen room
  rw [← Answer.ticks_eq_zero_iff, ← OrderedMap.size_eq_zero_iff, BacklogSample.showsQuiescence_iff]
  dsimp only
  omega

theorem unchanged_of_no_ticks
    (still : ∀ answer ∈ answersWithin start before after, answer.tookTick = false) :
    (atEnd start before after).engine.versions = start.engine.versions ∧
      start.engine.notifications = (atCount start before).engine.notifications ∧
        (atEnd start before after).engine.notifications =
          (atCount start before).engine.notifications := by
  rw [← Answer.ticks_eq_zero_iff, answersWithin, Answer.ticks_append] at still
  have stillBefore :
      Answer.ticks ((start.perform .readClock).2.performAll before).1 = 0 := by omega
  have stillAfter : Answer.ticks ((atCount start before).performAll after).1 = 0 := by omega
  rcases Cluster.performAll_of_ticks_eq_zero stillBefore with ⟨versions, notifications⟩
  rcases Cluster.performAll_of_ticks_eq_zero stillAfter with ⟨versionsThen, notificationsThen⟩
  have reading : start.engine.readClock.2.versions = start.engine.versions ∧
      start.engine.readClock.2.notifications = start.engine.notifications := by
    cases available : start.engine.available <;> simp [Engine.readClock, available, Engine.tick]
  rw [perform_readClock_snd] at versions notifications
  refine ⟨versionsThen.trans ?_, ?_, notificationsThen⟩
  · simp only [atCount, perform_readClock_snd]
    exact versions.trans reading.1
  · simp only [atCount, perform_readClock_snd]
    exact (notifications.trans reading.2).symm

/-- Quiescence cannot be shown by work that comes and goes within a sample: a wait that is finished
saw no notification at either reading, and nobody committed in between. -/
theorem finished_excludes_commits (history before after : List Operation) (settings : Settings)
    (timeout now : Nat)
    (succeeded : (sampleAmid before after timeout now (Cluster.fresh.performAll history).2).result =
      .ok sample)
    (oneTick : settings.clockReadTicks = 1)
    (room : Cluster.fresh.HasRoomFor
      (history ++ .readClock :: (before ++ .countNotifications :: (after ++ [.readClock])))) :
    (sample.showsQuiescence settings.clockReadTicks = true ↔
      (atCount (Cluster.fresh.performAll history).2 before).engine.notifications.entries = [] ∧
        ∀ answer ∈ answersWithin (Cluster.fresh.performAll history).2 before after,
          answer.tookTick = false) ∧
    (sample.verdictUnder settings = .finished →
      (atEnd (Cluster.fresh.performAll history).2 before after).engine.versions =
          (Cluster.fresh.performAll history).2.engine.versions ∧
        (Cluster.fresh.performAll history).2.engine.notifications.entries = [] ∧
        (atEnd (Cluster.fresh.performAll history).2 before after).engine.notifications.entries =
          []) ∧
    ((∃ timestamp changes, .committed timestamp changes ∈
        answersWithin (Cluster.fresh.performAll history).2 before after) →
      sample.verdictUnder settings ≠ .finished) := by
  have shows := showsQuiescence_sampleAmid_iff succeeded (Cluster.hasRoomFor_append.1 room).2
  have finished : sample.verdictUnder settings = .finished ↔ sample.showsQuiescence 1 = true := by
    rw [BacklogSample.verdictUnder_eq_finished_iff, oneTick]
  rw [oneTick, finished]
  refine ⟨shows, ?_, ?_⟩
  · intro quiescent
    rcases shows.1 quiescent with ⟨noneOutstanding, still⟩
    rcases unchanged_of_no_ticks still with ⟨versions, atFirst, atSecond⟩
    rw [atFirst, atSecond]
    exact ⟨versions, noneOutstanding, noneOutstanding⟩
  · rintro ⟨timestamp, changes, committed⟩ quiescent
    have untaken := (shows.1 (finished.1 quiescent)).2 _ committed
    cases untaken

/-- Work that is raised and done between the first reading and the count, then an outage. -/
def workWithin : List Operation :=
  [.commit [.set ⟨[1], ⟨[10], []⟩⟩ [7], .notify ⟨[1], ⟨[10], []⟩⟩],
    .commit [.acknowledge ⟨[1], ⟨[10], []⟩⟩]]

theorem finished_excludes_workWithin :
    ∃ sample settings,
      (sampleAmid workWithin [.setAvailable false, .commit [], .setAvailable true] 500 0
        (Cluster.fresh.performAll workWithin).2).result = .ok sample ∧
      settings.clockReadTicks = 1 ∧
      Cluster.fresh.HasRoomFor (workWithin ++ .readClock :: (workWithin ++ .countNotifications ::
        ([.setAvailable false, .commit [], .setAvailable true] ++ [.readClock]))) ∧
      sample.outstanding = 0 ∧ sample.verdictUnder settings ≠ .finished := by
  refine ⟨⟨⟨3⟩, 0, ⟨6⟩⟩, ⟨"flow", ⟨1, by decide⟩, 500, .standard, 1⟩, rfl, rfl, by decide, rfl, ?_⟩
  exact (finished_excludes_commits workWithin workWithin
    [.setAvailable false, .commit [], .setAvailable true] _ 500 0 rfl rfl (by decide)).2.2
      ⟨⟨4⟩, 2, by decide⟩

end AttendedCluster

end DataflowOps
