import DataflowOps.Proofs.CancelledWait
import DataflowOps.Proofs.Window

/-!
# Polls of a cluster that others visit

A wait polls a cluster in memory, and in its sleeps other clients visit the cluster at instants of
their own. The length of a sleep follows from the backlog that its poll finds, so the instants of
the polls and what each of them finds follow from the visits alone. This file defines them by
recursion, without a wait, and shows that the wait polls at these instants and finds these clusters.
-/

namespace DataflowOps

namespace Visit

theorem insert_perm (visit : Visit) (visits : List Visit) :
    (insert visit visits).Perm (visit :: visits) := by
  induction visits with
  | nil => exact List.Perm.refl _
  | cons other rest ih =>
      simp only [insert]
      split
      · exact List.Perm.refl _
      · exact (ih.cons other).trans (List.Perm.swap visit other rest)

theorem inOrder_perm (visits : List Visit) : (inOrder visits).Perm visits := by
  induction visits with
  | nil => exact List.Perm.refl _
  | cons visit rest ih => exact (insert_perm visit (inOrder rest)).trans (ih.cons visit)

def Ordered (visits : List Visit) : Prop :=
  visits.Pairwise fun earlier later => earlier.instant ≤ later.instant

theorem Ordered.insert {visits : List Visit} (ordered : Ordered visits) (visit : Visit) :
    Ordered (insert visit visits) := by
  induction visits with
  | nil => exact List.pairwise_singleton _ _
  | cons other rest ih =>
      rcases List.pairwise_cons.1 ordered with ⟨otherFirst, restOrdered⟩
      simp only [Visit.insert]
      split
      · next before =>
        refine List.pairwise_cons.2 ⟨fun later member => ?_, ordered⟩
        rcases List.mem_cons.1 member with rfl | member
        · exact before
        · exact Nat.le_trans before (otherFirst later member)
      · next after =>
        refine List.pairwise_cons.2 ⟨fun later member => ?_, ih restOrdered⟩
        rcases List.mem_cons.1 ((insert_perm visit rest).mem_iff.1 member) with rfl | member
        · exact Nat.le_of_not_le after
        · exact otherFirst later member

theorem inOrder_ordered (visits : List Visit) : Ordered (inOrder visits) := by
  induction visits with
  | nil => exact List.Pairwise.nil
  | cons visit rest ih => exact ih.insert visit

/-- The visits yet to come after an instant, in their order. -/
def ahead (now : Nat) (visits : List Visit) : List Visit :=
  (inOrder visits).filter fun visit => now < visit.instant

/-- The visits after one instant and not after another, in their order. -/
def between (now wake : Nat) (visits : List Visit) : List Visit :=
  (inOrder visits).filter fun visit => now < visit.instant ∧ visit.instant ≤ wake

theorem ahead_ordered (now : Nat) (visits : List Visit) : Ordered (ahead now visits) :=
  (inOrder_ordered visits).filter _

theorem filter_due_ahead (now wake : Nat) (visits : List Visit) :
    (ahead now visits).filter (fun visit => visit.instant ≤ wake) = between now wake visits := by
  rw [ahead, between, List.filter_filter]
  apply List.filter_congr
  intro visit _
  simp [Bool.and_comm]

theorem filter_late_ahead {now wake : Nat} (notBefore : now ≤ wake) (visits : List Visit) :
    (ahead now visits).filter (fun visit => wake < visit.instant) = ahead wake visits := by
  rw [ahead, ahead, List.filter_filter]
  apply List.filter_congr
  intro visit _
  simp
  omega

theorem ahead_zero {visits : List Visit} (later : ∀ visit ∈ visits, 0 < visit.instant) :
    ahead 0 visits = inOrder visits := by
  apply List.filter_eq_self.2
  intro visit member
  exact decide_eq_true (later visit ((inOrder_perm visits).mem_iff.1 member))

theorem between_of_past {now wake : Nat} {visits : List Visit}
    (past : ∀ visit ∈ visits, visit.instant ≤ now) : between now wake visits = [] := by
  apply List.filter_eq_nil_iff.2
  intro visit member
  have before := past visit ((inOrder_perm visits).mem_iff.1 member)
  simp only [decide_eq_true_eq]
  omega

end Visit

namespace AttendedCluster

/-- Visits in their order are made as far as they are due, and the others are left. -/
theorem visitUntil_snd {visits : List Visit} (ordered : Visit.Ordered visits) (instant : Nat)
    (cluster : Cluster) :
    (visitUntil instant cluster visits).2 =
      ((cluster.performAll
          ((visits.filter fun visit => visit.instant ≤ instant).flatMap Visit.operations)).2,
        visits.filter fun visit => instant < visit.instant) := by
  induction visits generalizing cluster with
  | nil => rfl
  | cons visit rest ih =>
      rcases List.pairwise_cons.1 ordered with ⟨visitFirst, restOrdered⟩
      by_cases due : visit.instant ≤ instant
      · simp [visitUntil, due, ih restOrdered, Cluster.performAll_append, Nat.not_lt.2 due]
      · have late : ∀ later ∈ visit :: rest, instant < later.instant := by
          intro later member
          rcases List.mem_cons.1 member with rfl | member
          · exact Nat.lt_of_not_le due
          · exact Nat.lt_of_lt_of_le (Nat.lt_of_not_le due) (visitFirst later member)
        have noneDue : (visit :: rest).filter (fun visit => visit.instant ≤ instant) = [] := by
          apply List.filter_eq_nil_iff.2
          intro later member
          simpa using late later member
        have allLate : (visit :: rest).filter (fun visit => instant < visit.instant) =
            visit :: rest := by
          apply List.filter_eq_self.2
          intro later member
          simpa using late later member
        rw [noneDue, allLate]
        simp [visitUntil, due]

theorem visitUntil_ahead_snd {now wake : Nat} (notBefore : now ≤ wake) (cluster : Cluster)
    (visits : List Visit) :
    (visitUntil wake cluster (Visit.ahead now visits)).2 =
      ((cluster.performAll ((Visit.between now wake visits).flatMap Visit.operations)).2,
        Visit.ahead wake visits) := by
  rw [visitUntil_snd (Visit.ahead_ordered now visits), Visit.filter_due_ahead,
    Visit.filter_late_ahead notBefore]

/-- A poll: its instant and the cluster that it finds. -/
structure Poll where
  instant : Nat
  found : Cluster

namespace Poll

/-- What a sample does. -/
def operations : List Operation := [.readClock, .countNotifications, .readClock]

def outstanding (poll : Poll) : Nat := poll.found.engine.notifications.size

/-- The cluster after the sample of the poll. -/
def sampled (poll : Poll) : Cluster := (poll.found.performAll operations).2

/-- The milliseconds to the next poll. -/
def pause (settings : Settings) (poll : Poll) : Nat :=
  1000 * max settings.sleepPolicy.minimum
    (min (poll.outstanding / settings.workers / settings.sleepPolicy.ratePerWorker)
      settings.sleepPolicy.maximum)

/-- The cluster as others leave it up to an instant after the sample. -/
def visitedUntil (visits : List Visit) (instant : Nat) (poll : Poll) : Cluster :=
  (poll.sampled.performAll
    ((Visit.between poll.instant instant visits).flatMap Visit.operations)).2

/-- The poll that follows after the sleep. -/
def next (settings : Settings) (visits : List Visit) (poll : Poll) : Poll where
  instant := poll.instant + poll.pause settings
  found := poll.visitedUntil visits (poll.instant + poll.pause settings)

/-- Whether the poll shows that all work is done. -/
def Quiet (settings : Settings) (poll : Poll) : Prop :=
  settings.clockReadTicks = 1 ∧ poll.outstanding = 0

instance (settings : Settings) (poll : Poll) : Decidable (poll.Quiet settings) :=
  inferInstanceAs (Decidable (_ ∧ _))

/-- When a poll is followed by another one. -/
structure GoesOn (settings : Settings) (cancellation : Cancellation) (visits : List Visit)
    (poll : Poll) : Prop where
  available : poll.found.engine.available = true
  busy : ¬ poll.Quiet settings
  undisturbed : cancellation.interruption? (poll.next settings visits).instant = none

/-- The calls of a sample. -/
def calls (poll : Poll) : List ObservedCall :=
  [⟨.readClock, poll.instant, poll.instant⟩, ⟨.countOutstanding, poll.instant, poll.instant⟩,
    ⟨.readClock, poll.instant, poll.instant⟩]

end Poll

/-- The polls of a wait that never ends. -/
def pollAt (settings : Settings) (visits : List Visit) (start : Cluster) : (index : Nat) → Poll
  | 0 => ⟨0, start⟩
  | index + 1 => (pollAt settings visits start index).next settings visits

/-- When a wait gets to a poll: it was not cancelled before it started, and goes on with every
earlier poll. -/
structure Reached (settings : Settings) (cancellation : Cancellation) (visits : List Visit)
    (start : Cluster) (index : Nat) : Prop where
  started : cancellation ≠ .beforeStart
  goesOn : ∀ earlier < index,
    (pollAt settings visits start earlier).GoesOn settings cancellation visits

/-- The calls of the first polls. -/
def callsBefore (settings : Settings) (visits : List Visit) (start : Cluster) (polls : Nat) :
    List ObservedCall :=
  (List.range polls).flatMap fun index => (pollAt settings visits start index).calls

theorem callsBefore_succ (settings : Settings) (visits : List Visit) (start : Cluster)
    (polls : Nat) :
    callsBefore settings visits start (polls + 1) =
      callsBefore settings visits start polls ++ (pollAt settings visits start polls).calls := by
  simp [callsBefore, List.range_succ]

variable {settings : Settings} {cancellation : Cancellation} {visits : List Visit} {poll : Poll}

theorem sampled_of_available (available : poll.found.engine.available = true) :
    poll.sampled = { poll.found with engine := poll.found.engine.tick.tick } := by
  simp [Poll.sampled, Poll.operations, Cluster.perform, Engine.readClock,
    Engine.countNotifications, Engine.tick, available]

/-- A sample takes the ticks of its two clock reads. -/
theorem clock_sampled (available : poll.found.engine.available = true)
    (room : poll.found.HasRoomFor Poll.operations) :
    poll.sampled.engine.clock.ticks.toNat = poll.found.engine.clock.ticks.toNat + 2 := by
  have counted := Cluster.clock_performAll room
  have ticks : Answer.ticks (poll.found.performAll Poll.operations).1 = 2 := by
    simp [Poll.operations, Cluster.perform, Engine.readClock, Engine.countNotifications,
      Engine.tick, available, Answer.tookTick]
  rw [ticks] at counted
  exact counted

/-- What a sample of the poll finds when the engine is available. -/
def Poll.sample (poll : Poll) : BacklogSample :=
  ⟨poll.found.engine.clock.next, poll.outstanding, poll.found.engine.clock.next.next⟩

/-- Only a quiet poll ends the wait, whether the clock has room or not. -/
theorem showsQuiescence_of_busy (busy : ¬ poll.Quiet settings) :
    poll.sample.showsQuiescence settings.clockReadTicks = false := by
  rw [← Bool.not_eq_true, BacklogSample.showsQuiescence_iff]
  rintro ⟨noneOutstanding, readings⟩
  apply busy
  refine ⟨?_, noneOutstanding⟩
  simp only [Poll.sample] at readings
  by_cases room : poll.found.engine.clock.next.ticks.toNat + 1 < UInt64.size
  · rw [Timestamp.next_toNat room] at readings
    omega
  · -- The second reading has wrapped around to zero, below the first one.
    have last := poll.found.engine.clock.next.ticks.toNat_lt
    simp only [Timestamp.next, UInt64.toNat_add, UInt64.size] at readings room last
    simp at readings room last
    omega

theorem showsQuiescence_of_quiet (quiet : poll.Quiet settings)
    (available : poll.found.engine.available = true)
    (room : poll.found.HasRoomFor Poll.operations) :
    poll.sample.showsQuiescence settings.clockReadTicks = true := by
  rw [BacklogSample.showsQuiescence_iff]
  have first := Timestamp.next_toNat (room.cons.1.next available)
  have second := clock_sampled available room
  rw [sampled_of_available available] at second
  refine ⟨quiet.2, ?_⟩
  simp only [Engine.tick_clock] at second
  rw [quiet.1]
  simp only [Poll.sample]
  omega

section Observed

variable {answers : List (List Answer)} {calls : List ObservedCall} {timeout : Nat}

/-- The state of an observed wait at a poll, with the answers given to earlier visits and the calls
made before. -/
def standing (visits : List Visit) (poll : Poll) (answers : List (List Answer))
    (calls : List ObservedCall) : AttendedCluster × Logbook :=
  (⟨poll.found, Visit.ahead poll.instant visits, answers⟩, ⟨poll.instant, calls⟩)

theorem sample_of_available (available : poll.found.engine.available = true) :
    (source.observed timeout).sample timeout poll.instant (standing visits poll answers calls) =
      ⟨.ok poll.sample, poll.instant,
        standing visits ⟨poll.instant, poll.sampled⟩ answers (calls ++ poll.calls)⟩ := by
  simp [Poll.sample, BacklogSource.sample, BacklogSource.observed, source, standing, Timed.receive,
    Logbook.add, Engine.readClock, Engine.countNotifications, available, Engine.tick,
    sampled_of_available, Poll.outstanding, Poll.calls]

theorem sample_of_offline (offline : poll.found.engine.available = false) :
    (source.observed timeout).sample timeout poll.instant (standing visits poll answers calls) =
      ⟨.error Engine.offline, poll.instant,
        standing visits poll answers (calls ++ [⟨.readClock, poll.instant, poll.instant⟩])⟩ := by
  simp [BacklogSource.sample, BacklogSource.observed, source, standing, Timed.receive, Logbook.add,
    Engine.readClock, offline]

/-- Sleeping after a poll lets the visits happen that are due until the sleep ends. -/
theorem sleepUntil_sampled (timeout : Nat) (visits : List Visit) (answers : List (List Answer))
    (calls : List ObservedCall) {instant : Nat} (notBefore : poll.instant ≤ instant) :
    ∃ moreAnswers, ((source.observed timeout).sleepUntil instant
        (standing visits ⟨poll.instant, poll.sampled⟩ answers calls)).2 =
      standing visits ⟨instant, poll.visitedUntil visits instant⟩ moreAnswers calls := by
  have visited := visitUntil_ahead_snd notBefore poll.sampled visits
  simp only [BacklogSource.observed, source, standing, visited]
  exact ⟨_, rfl⟩

end Observed

/-- How a wait ended: its result, the instant, the cluster left behind and the calls made. -/
structure Ending where
  result : Except WaitFailure WaitEnd
  instant : Nat
  cluster : Cluster
  calls : List ObservedCall

def ending (run : WaitRun (AttendedCluster × Logbook)) : Ending :=
  ⟨run.result, run.instant, run.state.1.cluster, run.state.2.calls⟩

/-- A wait means to sleep until the poll that would follow. -/
theorem wake_sample (short : 1000 * settings.sleepPolicy.maximum ≤ Pause.longest)
    (visits : List Visit) (poll : Poll) :
    BacklogSource.wake settings poll.sample poll.instant = (poll.next settings visits).instant := by
  have bounded := settings.sleepPolicy.sleepSeconds_le_maximum poll.sample.outstanding
    settings.workers
  rw [BacklogSource.wake, Pause.elapsed_of_le_longest (by omega)]
  rfl

section Timeline

variable {start : Cluster}

theorem hasPassed_zero (started : cancellation ≠ .beforeStart) :
    cancellation.hasPassed 0 = false := by
  cases cancellation with
  | never => rfl
  | beforeStart => exact absurd rfl started
  | atInstant instant => rfl

theorem Reached.hasPassed_eq_false {index : Nat}
    (reached : Reached settings cancellation visits start index) :
    cancellation.hasPassed (pollAt settings visits start index).instant = false := by
  cases index with
  | zero => exact hasPassed_zero reached.started
  | succ index =>
      have last := reached.goesOn index (Nat.lt_succ_self index)
      exact Cancellation.hasPassed_of_interruption?_eq_none last.undisturbed

/-- That an observed wait in progress is about to take a poll, with the calls of the earlier ones
made. -/
inductive AtPoll (settings : Settings) (visits : List Visit) (start : Cluster) (index : Nat) :
    WaitStage (AttendedCluster × Logbook) → Prop where
  | intro {samples : List BacklogSample} (counted : samples.length = index)
    (answers : List (List Answer)) (events : List Event) :
    AtPoll settings visits start index ⟨samples, (pollAt settings visits start index).instant,
      standing visits (pollAt settings visits start index) answers
        (callsBefore settings visits start index), events⟩

section Stages

variable {stage : WaitStage (AttendedCluster × Logbook)} {index : Nat}

theorem AtPoll.exists_pollsOn (short : 1000 * settings.sleepPolicy.maximum ≤ Pause.longest)
    (atPoll : AtPoll settings visits start index stage)
    (inTime : cancellation.hasPassed (pollAt settings visits start index).instant = false)
    (goesOn : (pollAt settings visits start index).GoesOn settings cancellation visits) :
    ∃ next, (source.observed settings.retryTimeout).PollsOn settings cancellation stage next ∧
      AtPoll settings visits start (index + 1) next := by
  rcases atPoll with ⟨counted, answers, events⟩
  refine ⟨_, .slept inTime (sample_of_available goesOn.available) rfl
    (showsQuiescence_of_busy goesOn.busy) ?_, ?_⟩
  · rw [wake_sample short visits]
    exact goesOn.undisturbed
  · rw [wake_sample short visits]
    have notBefore : (pollAt settings visits start index).instant ≤
        ((pollAt settings visits start index).next settings visits).instant :=
      Nat.le_add_right _ _
    rcases sleepUntil_sampled settings.retryTimeout visits answers
      (callsBefore settings visits start index ++ (pollAt settings visits start index).calls)
      notBefore with ⟨moreAnswers, slept⟩
    simp only [BacklogSource.sleepOn, slept]
    rw [← callsBefore_succ]
    refine .intro ?_ moreAnswers _
    rw [← counted]
    exact List.length_append

/-- A wait gets to a poll with the calls of the earlier polls made. -/
theorem Reached.exists_stage (short : 1000 * settings.sleepPolicy.maximum ≤ Pause.longest)
    (later : ∀ visit ∈ visits, 0 < visit.instant)
    (reached : Reached settings cancellation visits start index) :
    ∃ stage, (source.observed settings.retryTimeout).Reaches settings cancellation
        (⟨start, Visit.inOrder visits, []⟩, {}) stage ∧
      AtPoll settings visits start index stage := by
  induction index with
  | zero =>
      refine ⟨_, .refl, ?_⟩
      rw [← Visit.ahead_zero later]
      exact .intro List.length_nil [] []
  | succ index ih =>
      have reachedBefore : Reached settings cancellation visits start index :=
        ⟨reached.started, fun earlier before => reached.goesOn earlier (Nat.lt_succ_of_lt before)⟩
      rcases ih reachedBefore with ⟨stage, reaches, atPoll⟩
      rcases atPoll.exists_pollsOn short reachedBefore.hasPassed_eq_false
        (reached.goesOn index (Nat.lt_succ_self index)) with ⟨next, polled, atNext⟩
      exact ⟨next, reaches.tail polled, atNext⟩

theorem AtPoll.length_samples (atPoll : AtPoll settings visits start index stage) :
    stage.samples.length = index := by
  cases atPoll with
  | intro counted _ _ => exact counted

theorem pollFrom_of_reached (short : 1000 * settings.sleepPolicy.maximum ≤ Pause.longest)
    (later : ∀ visit ∈ visits, 0 < visit.instant)
    (reached : Reached settings cancellation visits start index) (limit : Nat) :
    ∃ answers, ((source.observed settings.retryTimeout).pollFrom settings cancellation
        (index + limit) 0 0 (⟨start, Visit.inOrder visits, []⟩, {})).map ending =
      ((source.observed settings.retryTimeout).pollFrom settings cancellation limit index
        (pollAt settings visits start index).instant
        (standing visits (pollAt settings visits start index) answers
          (callsBefore settings visits start index))).map ending := by
  rcases reached.exists_stage short later with ⟨_, reaches, counted, answers, events⟩
  subst counted
  have rest := congrArg (Option.map ending) (BacklogSource.waitFrom_of_reaches reaches limit)
  simp only [BacklogSource.waitFrom, Option.map_map] at rest
  exact ⟨answers, rest⟩

theorem AtPoll.concludes_of_offline (atPoll : AtPoll settings visits start index stage)
    (inTime : cancellation.hasPassed (pollAt settings visits start index).instant = false)
    (offline : (pollAt settings visits start index).found.engine.available = false) :
    ∃ run, (source.observed settings.retryTimeout).Concludes settings cancellation stage run ∧
      ending run = ⟨.error ⟨Engine.offline⟩, (pollAt settings visits start index).instant,
        (pollAt settings visits start index).found,
        callsBefore settings visits start index ++
          [⟨.readClock, (pollAt settings visits start index).instant,
            (pollAt settings visits start index).instant⟩]⟩ := by
  rcases atPoll with ⟨rfl, answers, events⟩
  exact ⟨_, .failed inTime (sample_of_offline offline) rfl, rfl⟩

theorem AtPoll.concludes_of_quiet (atPoll : AtPoll settings visits start index stage)
    (inTime : cancellation.hasPassed (pollAt settings visits start index).instant = false)
    (available : (pollAt settings visits start index).found.engine.available = true)
    (quiet : (pollAt settings visits start index).Quiet settings)
    (room : (pollAt settings visits start index).found.HasRoomFor Poll.operations) :
    ∃ run, (source.observed settings.retryTimeout).Concludes settings cancellation stage run ∧
      ending run = ⟨.ok (.finished (index + 1)), (pollAt settings visits start index).instant,
        (pollAt settings visits start index).sampled,
        callsBefore settings visits start (index + 1)⟩ := by
  rcases atPoll with ⟨rfl, answers, events⟩
  rw [callsBefore_succ]
  exact ⟨_, .finished inTime (sample_of_available available) rfl
    (showsQuiescence_of_quiet quiet available room), rfl⟩

theorem AtPoll.concludes_of_cancelled (short : 1000 * settings.sleepPolicy.maximum ≤ Pause.longest)
    {cancelled : Nat} (atPoll : AtPoll settings visits start index stage)
    (inTime : (pollAt settings visits start index).instant ≤ cancelled)
    (available : (pollAt settings visits start index).found.engine.available = true)
    (busy : ¬ (pollAt settings visits start index).Quiet settings)
    (asleep : cancelled ≤ (pollAt settings visits start (index + 1)).instant) :
    ∃ run, (source.observed settings.retryTimeout).Concludes settings (.atInstant cancelled) stage
        run ∧
      ending run = ⟨.ok (.cancelled (index + 1)), cancelled,
        (pollAt settings visits start index).visitedUntil visits cancelled,
        callsBefore settings visits start (index + 1)⟩ := by
  rcases atPoll with ⟨counted, answers, events⟩
  have pending : (Cancellation.atInstant cancelled).hasPassed
      (pollAt settings visits start index).instant = false := by
    simpa [Cancellation.hasPassed] using inTime
  rcases sleepUntil_sampled settings.retryTimeout visits answers
    (callsBefore settings visits start index ++ (pollAt settings visits start index).calls) inTime
    with ⟨moreAnswers, slept⟩
  have interrupted : (Cancellation.atInstant cancelled).interruption?
      (BacklogSource.wake settings (pollAt settings visits start index).sample
        (pollAt settings visits start index).instant) = some cancelled := by
    rw [wake_sample short visits]
    exact if_pos asleep
  refine ⟨_, .interrupted pending (sample_of_available available) rfl (showsQuiescence_of_busy busy)
    interrupted rfl, ?_⟩
  rw [callsBefore_succ]
  simp only [ending, BacklogSource.sleepOn, Nat.max_eq_right inTime, slept, List.length_append,
    counted]
  rfl

end Stages

theorem foldl_max_le_iff {instants : List Nat} {base bound : Nat} :
    instants.foldl max base ≤ bound ↔ base ≤ bound ∧ ∀ instant ∈ instants, instant ≤ bound := by
  induction instants generalizing base with
  | nil => simp
  | cons instant rest ih =>
      rw [List.foldl_cons, ih, Nat.max_le, List.forall_mem_cons, and_assoc]

theorem of_horizon_le {now : Nat} (past : horizon cancellation visits ≤ now) :
    (∀ visit ∈ visits, visit.instant ≤ now) ∧
      ∀ instant, cancellation = .atInstant instant → instant ≤ now := by
  rcases foldl_max_le_iff.1 past with ⟨cancelled, visited⟩
  refine ⟨fun visit member => visited _ (List.mem_map_of_mem member), ?_⟩
  rintro instant rfl
  exact cancelled

/-- Polls are at least a second apart. -/
theorem le_instant_pollAt (shortest : 1 ≤ settings.sleepPolicy.minimum) (visits : List Visit)
    (start : Cluster) (index : Nat) :
    1000 * index ≤ (pollAt settings visits start index).instant := by
  induction index with
  | zero => exact Nat.zero_le _
  | succ index ih =>
      have slept : 1 ≤ max settings.sleepPolicy.minimum
          (min ((pollAt settings visits start index).outstanding / settings.workers /
            settings.sleepPolicy.ratePerWorker) settings.sleepPolicy.maximum) :=
        Nat.le_trans shortest (Nat.le_max_left _ _)
      simp only [pollAt, Poll.next, Poll.pause]
      omega

theorem Poll.GoesOn.started (goesOn : poll.GoesOn settings cancellation visits) :
    cancellation ≠ .beforeStart := by
  rintro rfl
  cases goesOn.undisturbed

/-- Past the horizon every poll finds what the one before it left. -/
theorem Poll.GoesOn.next (past : horizon cancellation visits ≤ poll.instant)
    (goesOn : poll.GoesOn settings cancellation visits) :
    (poll.next settings visits).GoesOn settings cancellation visits := by
  rcases of_horizon_le past with ⟨visited, cancelled⟩
  have found : (poll.next settings visits).found =
      { poll.found with engine := poll.found.engine.tick.tick } := by
    simp only [Poll.next, Poll.visitedUntil, Visit.between_of_past visited]
    exact sampled_of_available goesOn.available
  have sameOutstanding : (poll.next settings visits).outstanding = poll.outstanding := by
    rw [Poll.outstanding, found]
    rfl
  constructor
  case available =>
    rw [found]
    exact goesOn.available
  case busy =>
    rw [Poll.Quiet, sameOutstanding]
    exact goesOn.busy
  case undisturbed =>
    have slept := goesOn.undisturbed
    cases cancellation with
    | never => rfl
    | beforeStart => exact absurd rfl goesOn.started
    | atInstant instant =>
        have before : instant ≤ (poll.next settings visits).instant :=
          Nat.le_trans (cancelled instant rfl) (Nat.le_add_right _ _)
        exact absurd slept (by simp [Cancellation.interruption?, before])

/-- As many polls as the limit allows show whether the wait ever ends. -/
theorem goesOn_of_pollLimit (shortest : 1 ≤ settings.sleepPolicy.minimum)
    (reached : Reached settings cancellation visits start (pollLimit cancellation visits))
    (index : Nat) : (pollAt settings visits start index).GoesOn settings cancellation visits := by
  induction index with
  | zero => exact reached.goesOn 0 (Nat.succ_pos _)
  | succ index ih =>
      by_cases within : index + 1 < pollLimit cancellation visits
      · exact reached.goesOn (index + 1) within
      · apply ih.next
        have instant := le_instant_pollAt shortest visits start index
        simp only [pollLimit] at within
        omega

end Timeline

end AttendedCluster

end DataflowOps
