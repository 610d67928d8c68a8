import DataflowOps.Proofs.ScriptedWait

/-!
# Cancelled waits on a script

A cancellation is noticed in a sleep, at once, or else when the sample that it falls into has been
taken. Up to then the wait goes on as it would have gone on without it. The observed calls, with
their instants, show that both waits on a script take the same samples at the same instants, and
that the cancelled one takes none that the cancellation precedes.
-/

namespace DataflowOps

namespace BacklogScript

variable {script : BacklogScript} {settings : Settings} {poll : Nat}

theorem pollStart_mono (script : BacklogScript) (settings : Settings) {earlier later : Nat}
    (notAfter : earlier ≤ later) :
    script.pollStart settings earlier ≤ script.pollStart settings later := by
  induction notAfter with
  | refl => exact Nat.le_refl _
  | step _ ih =>
      refine Nat.le_trans ih ?_
      simp only [pollStart]
      omega

/-- A sample takes at most three times as long as a call. -/
theorem sampleEnd_le (script : BacklogScript) (settings : Settings) (poll : Nat) :
    script.sampleEnd settings poll ≤
      script.pollStart settings poll + 3 * settings.retryTimeout := by
  have short {Value : Type} (call : RoundTrip) (reply : Reply Value) :
      (Trip.of call settings.retryTimeout reply).duration ≤ settings.retryTimeout := by
    simp only [Trip.of, Reply.duration]
    split
    · exact Nat.min_le_right _ _
    · exact Nat.le_refl _
  have first := short .readClock (replyAt script.clock (2 * poll))
  have second := short .countOutstanding (replyAt script.count poll)
  have third := short .readClock (replyAt script.clock (2 * poll + 1))
  simp only [sampleEnd, tripsAt, Trip.upToFailure]
  split
  · simp
    omega
  · split
    · simp
      omega
    · split <;> simp <;> omega

/-- A call that was started before a poll belongs to an earlier poll. -/
theorem mem_callsBefore_of_started_lt {fewer more : Nat} {call : ObservedCall}
    (member : call ∈ script.callsBefore settings more)
    (before : call.started < script.pollStart settings fewer) :
    call ∈ script.callsBefore settings fewer := by
  simp only [callsBefore, List.mem_flatMap, List.mem_range] at member ⊢
  rcases member with ⟨poll, within, member⟩
  refine ⟨poll, ?_, member⟩
  apply Nat.lt_of_not_le
  intro notBefore
  have started := Trip.started_of_mem_inSequence member
  have mono := script.pollStart_mono settings notBefore
  omega

theorem endsWith_atInstant_iff {instant : Nat} :
    script.endsWith settings (.atInstant instant) poll ↔
      (script.findsWork settings poll → instant ≤ script.pollStart settings (poll + 1)) := by
  simp [endsWith, Cancellation.interruption?]

/-- How a wait on a script with a cancellation at an instant is related to the one without it, which
has `polls` samples before its last one. The cancelled wait has `samples` of them before its last
one. -/
structure CutsShort (script : BacklogScript) (settings : Settings) (instant polls samples : Nat)
    (uncancelled cancelled : WaitRun (BacklogScript × Logbook)) : Prop where
  /-- The uncancelled wait ends with the sample that failed or showed quiescence. -/
  ends : ¬ script.findsWork settings polls
  result : uncancelled.result = script.resultAt settings polls
  duration : uncancelled.instant = script.sampleEnd settings polls
  calls : uncancelled.state =
    script.stateAfter uncancelled.instant (script.callsBefore settings (polls + 1))
  /-- The cancelled wait takes the samples of the other one, at the same instants. -/
  sharedCalls : cancelled.state =
    script.stateAfter cancelled.instant (script.callsBefore settings (samples + 1))
  fewer : samples ≤ polls
  agrees : ∀ call ∈ uncancelled.state.2.calls, call.started < instant →
    call ∈ cancelled.state.2.calls
  /-- It takes none after the cancellation. -/
  inTime : ∀ sample ≤ samples, script.pollStart settings sample < instant
  tooLate : uncancelled.instant < instant → cancelled = uncancelled
  duringSample : instant ≤ uncancelled.instant → instant ≤ script.sampleEnd settings samples →
    cancelled.instant = script.sampleEnd settings samples ∧
      if script.findsWork settings samples then cancelled.result = .ok (.cancelled (samples + 1))
      else cancelled = uncancelled
  duringSleep : instant ≤ uncancelled.instant → script.sampleEnd settings samples < instant →
    instant ≤ script.pollStart settings (samples + 1) ∧ cancelled.instant = instant ∧
      cancelled.result = .ok (.cancelled (samples + 1))
  prompt : cancelled.instant ≤ instant + 3 * settings.retryTimeout

/-- A poll after which the cancelled wait goes on is one after which the other one goes on as well,
and the cancellation is yet to come when the next poll begins. -/
theorem of_not_endsWith {instant : Nat}
    (goesOn : ¬ script.endsWith settings (.atInstant instant) poll) :
    script.findsWork settings poll ∧ script.pollStart settings (poll + 1) < instant := by
  rw [endsWith_atInstant_iff, Classical.not_imp] at goesOn
  rcases goesOn with ⟨works, wake⟩
  exact ⟨works, Nat.lt_of_not_le wake⟩

theorem runUpTo_of_not_findsWork (ends : ¬ script.findsWork settings poll)
    (cancellation : Cancellation) :
    script.runUpTo settings cancellation poll = script.runUpTo settings .never poll := by
  simp [runUpTo, endInstant, ends]

section CutsShort

variable {instant polls samples : Nat}

theorem pollStart_lt (later : 0 < instant)
    (goesOn : ∀ earlier < samples, ¬ script.endsWith settings (.atInstant instant) earlier) :
    script.pollStart settings samples < instant := by
  cases samples with
  | zero => exact later
  | succ samples =>
      have slept := goesOn samples (Nat.lt_succ_self samples)
      exact (of_not_endsWith slept).2

theorem le_of_not_endsWith (ends : ¬ script.findsWork settings polls)
    (goesOn : ∀ earlier < samples, ¬ script.endsWith settings (.atInstant instant) earlier) :
    samples ≤ polls := by
  apply Nat.le_of_not_lt
  intro more
  apply ends
  exact (of_not_endsWith (goesOn polls more)).1

/-- A cancelled wait that has fewer samples than the other one is over before it. -/
theorem le_sampleEnd_of_lt (goesOn : ∀ earlier < polls, script.findsWork settings earlier)
    (last : script.endsWith settings (.atInstant instant) samples) (fewer : samples < polls) :
    instant ≤ script.sampleEnd settings polls := by
  calc
    instant ≤ script.pollStart settings (samples + 1) :=
      endsWith_atInstant_iff.1 last (goesOn samples fewer)
    _ ≤ script.pollStart settings polls := script.pollStart_mono settings fewer
    _ ≤ script.sampleEnd settings polls := Nat.le_add_right _ _

theorem cutsShort (events : List Event) (later : 0 < instant)
    (goesOn : ∀ earlier < polls, script.findsWork settings earlier)
    (ends : ¬ script.findsWork settings polls)
    (goesOnThen : ∀ earlier < samples, ¬ script.endsWith settings (.atInstant instant) earlier)
    (last : script.endsWith settings (.atInstant instant) samples) :
    script.CutsShort settings instant polls samples
      ((script.runUpTo settings .never polls).after events)
      ((script.runUpTo settings (.atInstant instant) samples).after events) := by
  have fewer := le_of_not_endsWith ends goesOnThen
  have started := pollStart_lt later goesOnThen
  have short := script.sampleEnd_le settings samples
  have duration : ((script.runUpTo settings .never polls).after events).instant =
      script.sampleEnd settings polls := by
    simp [runUpTo, WaitRun.after, endInstant, ends]
  -- The last sample of the cancelled wait finds work unless it is the last one of both waits.
  have all (quiet : ¬ script.findsWork settings samples) : samples = polls := by
    apply Nat.le_antisymm fewer
    apply Nat.le_of_not_lt
    intro more
    exact quiet (goesOn samples more)
  have same (quiet : ¬ script.findsWork settings samples) :
      (script.runUpTo settings (.atInstant instant) samples).after events =
        (script.runUpTo settings .never polls).after events := by
    rw [all quiet, runUpTo_of_not_findsWork ends]
  have interrupted (works : script.findsWork settings samples) :
      instant ≤ script.pollStart settings (samples + 1) ∧
        ((script.runUpTo settings (.atInstant instant) samples).after events).instant =
          max (script.sampleEnd settings samples) instant ∧
        ((script.runUpTo settings (.atInstant instant) samples).after events).result =
          .ok (.cancelled (samples + 1)) := by
    have wake := endsWith_atInstant_iff.1 last works
    refine ⟨wake, ?_, ?_⟩
    · simp [runUpTo, WaitRun.after, endInstant, works, Cancellation.interruption?, wake]
    · simp [runUpTo, WaitRun.after, works]
  constructor
  case ends => exact ends
  case result => simp [runUpTo, WaitRun.after, ends]
  case duration => exact duration
  case calls => simp [runUpTo, WaitRun.after]
  case sharedCalls => simp [runUpTo, WaitRun.after]
  case fewer => exact fewer
  case agrees =>
    intro call member before
    simp only [runUpTo, WaitRun.after, stateAfter] at member ⊢
    rcases Nat.eq_or_lt_of_le fewer with rfl | more
    · exact member
    · apply mem_callsBefore_of_started_lt member
      exact Nat.lt_of_lt_of_le before (interrupted (goesOn samples more)).1
  case inTime =>
    intro sample within
    exact Nat.lt_of_le_of_lt (script.pollStart_mono settings within) started
  case tooLate =>
    intro early
    rw [duration] at early
    apply same
    intro works
    have more : samples < polls := by
      apply Nat.lt_of_le_of_ne fewer
      intro all
      exact ends (all ▸ works)
    have notOver := le_sampleEnd_of_lt goesOn last more
    omega
  case duringSample =>
    intro _ during
    by_cases works : script.findsWork settings samples
    · rcases interrupted works with ⟨_, instantIs, result⟩
      rw [if_pos works, instantIs]
      exact ⟨Nat.max_eq_left during, result⟩
    · rw [if_neg works, same works, duration, all works]
      exact ⟨rfl, rfl⟩
  case duringSleep =>
    intro notOver during
    have works : script.findsWork settings samples := by
      apply Classical.byContradiction
      intro quiet
      rw [duration, ← all quiet] at notOver
      omega
    rcases interrupted works with ⟨wake, instantIs, result⟩
    rw [instantIs]
    exact ⟨wake, Nat.max_eq_right (Nat.le_of_lt during), result⟩
  case prompt =>
    by_cases works : script.findsWork settings samples
    · rcases interrupted works with ⟨_, instantIs, _⟩
      omega
    · rw [same works, duration, ← all works]
      omega

namespace CutsShort

variable {uncancelled cancelled : WaitRun (BacklogScript × Logbook)}

theorem result_ne_cancelled
    (cut : script.CutsShort settings instant polls samples uncancelled cancelled) (count : Nat) :
    uncancelled.result ≠ .ok (.cancelled count) := by
  rw [cut.result, resultAt]
  split <;> simp

theorem le_instant_of_result_eq_cancelled
    (cut : script.CutsShort settings instant polls samples uncancelled cancelled) {count : Nat}
    (result : cancelled.result = .ok (.cancelled count)) : instant ≤ cancelled.instant := by
  by_cases early : uncancelled.instant < instant
  · rw [cut.tooLate early] at result
    exact absurd result (cut.result_ne_cancelled count)
  · have notOver := Nat.le_of_not_lt early
    by_cases during : instant ≤ script.sampleEnd settings samples
    · rw [(cut.duringSample notOver during).1]
      exact during
    · have woken := (cut.duringSleep notOver (Nat.lt_of_not_le during)).2.1
      exact Nat.le_of_eq woken.symm

end CutsShort

end CutsShort

/-- Cancelling a wait on a script at an instant leaves it as it is up to then. It goes on with a
sample that the instant falls into, and it ends at once if it sleeps. Cancelled beforehand, it takes
no sample. -/
theorem cancellation_cuts_wait_short (settings : Settings) (script : BacklogScript) (instant : Nat)
    (later : 0 < instant)
    (shortClock : ∀ reply ∈ script.clock, reply.delay ≤ Pause.longest)
    (shortCount : ∀ reply ∈ script.count, reply.delay ≤ Pause.longest)
    (shortSleep : 1000 * settings.sleepPolicy.maximum ≤ Pause.longest) :
    (∃ polls samples uncancelled cancelled,
      script.observedWait settings .never = some uncancelled ∧
      script.observedWait settings (.atInstant instant) = some cancelled ∧
      script.CutsShort settings instant polls samples uncancelled cancelled ∧
      (∀ count, uncancelled.result ≠ .ok (.cancelled count)) ∧
      ∀ count, cancelled.result = .ok (.cancelled count) → instant ≤ cancelled.instant) ∧
    script.observedWait settings .beforeStart =
      some ⟨.ok (.cancelled 0), 0, (script, {}),
        [.waitStarted settings.workers, .waitCancelled 0]⟩ ∧
    ∀ cancellation, script.wait settings cancellation =
      (script.observedWait settings cancellation).map (·.onState Prod.fst) := by
  refine ⟨?_, rfl, script.wait_eq_observedWait settings⟩
  rcases observedWait_eq .never shortClock shortCount shortSleep rfl with
    ⟨polls, goesOn, ends, waited⟩
  rcases observedWait_eq (.atInstant instant) shortClock shortCount shortSleep
    (by simp [Cancellation.hasPassed]) with ⟨samples, goesOnThen, last, waitedThen⟩
  simp only [endsWith_never_iff, Classical.not_not] at goesOn ends
  have cut := cutsShort [.waitStarted settings.workers] later goesOn ends goesOnThen last
  exact ⟨polls, samples, _, _, waited, waitedThen, cut, cut.result_ne_cancelled,
    fun count => cut.le_instant_of_result_eq_cancelled⟩

theorem cancellation_cuts_drainedBacklog_short :
    ∃ settings : Settings, 0 < 3000 ∧
      (∀ reply ∈ drainedBacklog.clock, reply.delay ≤ Pause.longest) ∧
      (∀ reply ∈ drainedBacklog.count, reply.delay ≤ Pause.longest) ∧
      1000 * settings.sleepPolicy.maximum ≤ Pause.longest ∧
      ∃ run, drainedBacklog.observedWait settings (.atInstant 3000) = some run ∧
        run.result = .ok (.cancelled 1) ∧ run.instant = 3000 := by
  refine ⟨⟨"flow", ⟨1, by decide⟩, 500, .standard, 1⟩, by decide, by decide, by decide, by decide,
    ?_⟩
  rcases cancellation_cuts_wait_short ⟨"flow", ⟨1, by decide⟩, 500, .standard, 1⟩ drainedBacklog
    3000 (by decide) (by decide) (by decide) (by decide) with
    ⟨⟨polls, samples, uncancelled, cancelled, _, waited, cut, _⟩, _⟩
  have first : samples = 0 := by
    apply Nat.eq_zero_of_not_pos
    intro more
    exact absurd (cut.inTime 1 more) (by decide)
  have notOver : 3000 ≤ uncancelled.instant := by
    have more : 0 < polls := by
      apply Nat.pos_of_ne_zero
      rintro rfl
      exact cut.ends (by decide)
    rw [cut.duration]
    calc
      3000 ≤ drainedBacklog.pollStart _ 1 := by decide
      _ ≤ drainedBacklog.pollStart _ polls := drainedBacklog.pollStart_mono _ more
      _ ≤ drainedBacklog.sampleEnd _ polls := Nat.le_add_right _ _
  subst first
  exact ⟨cancelled, waited, (cut.duringSleep notOver (by decide)).2.symm⟩

end BacklogScript

end DataflowOps
