import DataflowOps.Proofs.Keys
import DataflowOps.Store.Cluster

/-!
# What an operation does

An operation of a client changes the engine in a way that does not depend on the views that are
open, and it changes no view but the one that it names. Commits, clock reads and openings that
succeed take one tick each and nothing else takes any, so that the clock counts them as long as
there are fewer than the counter can hold.
-/

namespace DataflowOps

namespace Answer

/-- Whether the answer reports a tick: a commit, a clock read or an opening that succeeded. -/
def tookTick : Answer → Bool
  | committed .. | clock _ | opened .. => true
  | _ => false

/-- The timestamp that such an answer reports. -/
def timestamp? : Answer → Option Timestamp
  | committed timestamp _ | clock timestamp | opened _ timestamp => some timestamp
  | _ => none

theorem isSome_timestamp? (answer : Answer) : answer.timestamp?.isSome = answer.tookTick := by
  cases answer <;> rfl

def ticks (answers : List Answer) : Nat :=
  answers.countP tookTick

@[simp]
theorem ticks_nil : ticks [] = 0 := rfl

@[simp]
theorem ticks_cons (answer : Answer) (answers : List Answer) :
    ticks (answer :: answers) = (if answer.tookTick then 1 else 0) + ticks answers := by
  simp [ticks, List.countP_cons, Nat.add_comm]

@[simp]
theorem ticks_append (earlier later : List Answer) :
    ticks (earlier ++ later) = ticks earlier + ticks later :=
  List.countP_append

theorem ticks_eq_zero_iff {answers : List Answer} :
    ticks answers = 0 ↔ ∀ answer ∈ answers, answer.tookTick = false := by
  simp [ticks, List.countP_eq_zero]

end Answer

namespace Engine

@[simp]
theorem applyChange_clock (timestamp : Timestamp) (engine : Engine) (change : Change) :
    (applyChange timestamp engine change).clock = engine.clock := by
  cases change <;> rfl

@[simp]
theorem foldl_applyChange_clock (timestamp : Timestamp) (batch : Batch) (engine : Engine) :
    (batch.foldl (applyChange timestamp) engine).clock = engine.clock := by
  induction batch generalizing engine with
  | nil => rfl
  | cons change rest ih => simp [ih]

theorem readClock_fst_eq_ok_iff {engine : Engine} {reading : Timestamp} :
    engine.readClock.1 = .ok reading ↔
      engine.available = true ∧ engine.clock.next = reading := by
  cases available : engine.available <;> simp [readClock, available, tick]

theorem countNotifications_eq_ok_iff {engine : Engine} {count : Nat} :
    engine.countNotifications = .ok count ↔
      engine.available = true ∧ engine.notifications.size = count := by
  cases available : engine.available <;> simp [countNotifications, available]

@[simp]
theorem tick_clock (engine : Engine) : engine.tick.clock = engine.clock.next := rfl

/-- The engine after an operation, whatever views are open. -/
def after (engine : Engine) : Operation → Engine
  | .commit batch => (engine.commit batch).2
  | .readClock | .openView _ => engine.readClock.2
  | .setAvailable available => { engine with available }
  | _ => engine

/-- Whether an operation on the engine takes a tick. -/
def takesTick (engine : Engine) : Operation → Bool
  | .commit _ | .readClock | .openView _ => engine.available
  | _ => false

theorem after_clock (engine : Engine) (operation : Operation) :
    (engine.after operation).clock =
      if engine.takesTick operation then engine.clock.next else engine.clock := by
  cases operation <;> cases available : engine.available <;>
    simp [after, takesTick, commit, readClock, available]

theorem after_of_not_takesTick {engine : Engine} {operation : Operation}
    (still : engine.takesTick operation = false) :
    (engine.after operation).versions = engine.versions ∧
      (engine.after operation).notifications = engine.notifications := by
  cases operation <;> cases available : engine.available <;>
    simp_all [after, takesTick, commit, readClock]

end Engine

namespace Operation

def fetchesFrom (number : Nat) : Operation → Bool
  | fetchRow view | fetchColumn view => view == number
  | _ => false

def touches (number : Nat) : Operation → Bool
  | release view => view == number
  | operation => operation.fetchesFrom number

theorem fetchesFrom_eq_true_iff {number : Nat} {operation : Operation} :
    operation.fetchesFrom number = true ↔
      operation = fetchRow number ∨ operation = fetchColumn number := by
  cases operation <;> simp [fetchesFrom]

theorem touches_eq_fetchesFrom {number : Nat} {operation : Operation}
    (kept : operation ≠ release number) :
    operation.touches number = operation.fetchesFrom number := by
  cases operation with
  | release view =>
      have different : view ≠ number := fun same => kept (congrArg release same)
      simp [touches, fetchesFrom, different]
  | _ => rfl

end Operation

namespace View

@[simp]
theorem fetchRow_readAt (view : View) (engine : Engine) :
    (view.fetchRow engine).2.snapshot.readAt = view.snapshot.readAt := by
  have kept : (view.snapshot.fetchRow engine).2.readAt = view.snapshot.readAt := by
    unfold Snapshot.fetchRow
    split
    · rfl
    · split
      · rfl
      · split <;> rfl
  unfold fetchRow
  split
  · next fetched => simpa [fetched] using kept
  · next fetched => simpa [fetched] using kept
  · rfl

@[simp]
theorem fetchColumn_snapshot (view : View) (engine : Engine) :
    (view.fetchColumn engine).2.snapshot = view.snapshot := by
  unfold fetchColumn
  split <;> rfl

end View

/-- A call that a client made, with the answer to it. -/
abbrev Call := Operation × Answer

namespace Cluster

theorem view?_eq_some_iff {cluster : Cluster} {number : Nat} {view : View} :
    cluster.view? number = some view ↔ cluster.views[number]? = some (some view) :=
  Option.join_eq_some_iff

theorem lt_length_of_view? {cluster : Cluster} {number : Nat} {view : View}
    (opened : cluster.view? number = some view) : number < cluster.views.length :=
  (List.getElem?_eq_some_iff.1 (view?_eq_some_iff.1 opened)).1

theorem setView_self {cluster : Cluster} {number : Nat} {view : View}
    (opened : cluster.view? number = some view) :
    cluster.setView number (some view) = cluster := by
  rcases List.getElem?_eq_some_iff.1 (view?_eq_some_iff.1 opened) with ⟨inside, same⟩
  simp [setView, ← same]

theorem view?_setView_self {cluster : Cluster} {number : Nat} {view : View}
    (opened : cluster.view? number = some view) (next : Option View) :
    (cluster.setView number next).view? number = next := by
  simp [view?, setView, lt_length_of_view? opened]

theorem view?_setView_of_ne {cluster : Cluster} {number other : Nat} (different : other ≠ number)
    (next : Option View) : (cluster.setView other next).view? number = cluster.view? number := by
  simp [view?, setView, different]

/-- An operation leaves every view alone that it does not name. -/
theorem view?_perform_of_not_touches {cluster : Cluster} {number : Nat} {view : View}
    (opened : cluster.view? number = some view) {operation : Operation}
    (elsewhere : operation.touches number = false) :
    (cluster.perform operation).2.view? number = some view := by
  cases operation with
  | commit batch =>
      simp only [perform]
      split <;> exact opened
  | readClock =>
      simp only [perform]
      split <;> exact opened
  | countNotifications =>
      simp only [perform]
      split <;> exact opened
  | peekClock => exact opened
  | setAvailable available => exact opened
  | openView query =>
      simp only [perform]
      split
      · simpa [view?, List.getElem?_append_left (lt_length_of_view? opened)] using opened
      · exact opened
  | fetchRow other =>
      have different : other ≠ number := by
        simpa [Operation.touches, Operation.fetchesFrom] using elsewhere
      simp only [perform]
      split
      · exact opened
      · split <;> exact (view?_setView_of_ne different _).trans opened
  | fetchColumn other =>
      have different : other ≠ number := by
        simpa [Operation.touches, Operation.fetchesFrom] using elsewhere
      simp only [perform]
      split
      · exact opened
      · split <;> exact (view?_setView_of_ne different _).trans opened
  | release other =>
      have different : other ≠ number := by simpa [Operation.touches] using elsewhere
      exact (view?_setView_of_ne different _).trans opened

theorem perform_fetchRow_snd {cluster : Cluster} {number : Nat} {view : View}
    (here : cluster.view? number = some view) :
    (cluster.perform (.fetchRow number)).2 =
      cluster.setView number (some (view.fetchRow cluster.engine).2) := by
  simp only [perform, here]
  split <;> next fetched => rw [fetched]

theorem perform_fetchColumn_snd {cluster : Cluster} {number : Nat} {view : View}
    (here : cluster.view? number = some view) :
    (cluster.perform (.fetchColumn number)).2 =
      cluster.setView number (some (view.fetchColumn cluster.engine).2) := by
  simp only [perform, here]
  split <;> next fetched => rw [fetched]

theorem of_view?_setView {cluster : Cluster} {number other : Nat} {next : Option View} {view : View}
    (here : (cluster.setView other next).view? number = some view) :
    other = number ∧ next = some view ∨ cluster.view? number = some view := by
  by_cases same : other = number
  · refine Or.inl ⟨same, ?_⟩
    subst same
    by_cases inside : other < cluster.views.length
    · simpa [view?, setView, inside] using here
    · simp [view?, setView, inside] at here
  · rw [view?_setView_of_ne same] at here
    exact Or.inr here

theorem exists_view?_of_setView {cluster : Cluster} {number other : Nat} {before next view : View}
    (opened : cluster.view? other = some before)
    (kept : next.snapshot.readAt = before.snapshot.readAt)
    (here : (cluster.setView other (some next)).view? number = some view) :
    ∃ before, cluster.view? number = some before ∧
      before.snapshot.readAt = view.snapshot.readAt := by
  rcases of_view?_setView here with ⟨rfl, same⟩ | here
  · cases same
    exact ⟨before, opened, kept.symm⟩
  · exact ⟨view, here, rfl⟩

/-- A view that is open after an operation was open before, or was opened by it. -/
theorem exists_view?_of_perform {cluster : Cluster} {operation : Operation} {number : Nat}
    {view : View} (here : (cluster.perform operation).2.view? number = some view) :
    (∃ before, cluster.view? number = some before ∧
        before.snapshot.readAt = view.snapshot.readAt) ∨
      (cluster.perform operation).2.engine.clock = view.snapshot.readAt := by
  cases operation with
  | commit batch =>
      simp only [perform] at here
      split at here <;> exact Or.inl ⟨view, here, rfl⟩
  | readClock =>
      simp only [perform] at here
      split at here <;> exact Or.inl ⟨view, here, rfl⟩
  | countNotifications =>
      simp only [perform] at here
      split at here <;> exact Or.inl ⟨view, here, rfl⟩
  | peekClock => exact Or.inl ⟨view, here, rfl⟩
  | setAvailable available => exact Or.inl ⟨view, here, rfl⟩
  | openView query =>
      cases available : cluster.engine.available with
      | false =>
          simp only [perform, Engine.openSnapshot, Engine.readClock, available] at here
          exact Or.inl ⟨view, here, rfl⟩
      | true =>
          simp only [perform, Engine.openSnapshot, Engine.readClock, available, if_true, view?]
            at here ⊢
          rw [Option.join_eq_some_iff, List.getElem?_append] at here
          split at here
          · exact Or.inl ⟨view, Option.join_eq_some_iff.2 here, rfl⟩
          · rcases List.getElem?_eq_some_iff.1 here with ⟨_, same⟩
            rw [List.getElem_singleton, Option.some.injEq] at same
            subst same
            exact Or.inr rfl
  | fetchRow other =>
      cases opened : cluster.view? other with
      | none =>
          simp only [perform, opened] at here
          exact Or.inl ⟨view, here, rfl⟩
      | some before =>
          rw [perform_fetchRow_snd opened] at here
          exact Or.inl (exists_view?_of_setView opened (before.fetchRow_readAt _) here)
  | fetchColumn other =>
      cases opened : cluster.view? other with
      | none =>
          simp only [perform, opened] at here
          exact Or.inl ⟨view, here, rfl⟩
      | some before =>
          have kept := congrArg Snapshot.readAt (before.fetchColumn_snapshot cluster.engine)
          rw [perform_fetchColumn_snd opened] at here
          exact Or.inl (exists_view?_of_setView opened kept here)
  | release other =>
      rcases of_view?_setView here with ⟨_, none⟩ | here
      · cases none
      · exact Or.inl ⟨view, here, rfl⟩

/-- The operations performed on a cluster, each with its answer. -/
def transcript (cluster : Cluster) (operations : List Operation) : List Call :=
  operations.zip (cluster.performAll operations).1

@[simp]
theorem performAll_nil (cluster : Cluster) : cluster.performAll [] = ([], cluster) := rfl

@[simp]
theorem performAll_cons (cluster : Cluster) (operation : Operation) (rest : List Operation) :
    cluster.performAll (operation :: rest) =
      ((cluster.perform operation).1 :: ((cluster.perform operation).2.performAll rest).1,
        ((cluster.perform operation).2.performAll rest).2) := rfl

@[simp]
theorem transcript_nil (cluster : Cluster) : cluster.transcript [] = [] := rfl

@[simp]
theorem transcript_cons (cluster : Cluster) (operation : Operation) (rest : List Operation) :
    cluster.transcript (operation :: rest) =
      (operation, (cluster.perform operation).1) ::
        (cluster.perform operation).2.transcript rest := rfl

theorem performAll_append (cluster : Cluster) (earlier later : List Operation) :
    cluster.performAll (earlier ++ later) =
      ((cluster.performAll earlier).1 ++ ((cluster.performAll earlier).2.performAll later).1,
        ((cluster.performAll earlier).2.performAll later).2) := by
  induction earlier generalizing cluster with
  | nil => rfl
  | cons operation rest ih => simp [ih]

theorem transcript_append (cluster : Cluster) (earlier later : List Operation) :
    cluster.transcript (earlier ++ later) =
      cluster.transcript earlier ++ (cluster.performAll earlier).2.transcript later := by
  induction earlier generalizing cluster with
  | nil => rfl
  | cons operation rest ih => simp [ih]

/-- What an operation does to the engine, and the timestamp in its answer, do not depend on the open
views. -/
theorem perform_engine (cluster : Cluster) (operation : Operation) :
    (cluster.perform operation).2.engine = cluster.engine.after operation ∧
      (cluster.perform operation).1.timestamp? =
        if cluster.engine.takesTick operation then some cluster.engine.clock.next else none := by
  cases operation with
  | commit batch =>
      cases available : cluster.engine.available <;>
        simp [perform, Engine.after, Engine.takesTick, Answer.timestamp?, Engine.commit, available]
  | readClock =>
      cases available : cluster.engine.available <;>
        simp [perform, Engine.after, Engine.takesTick, Answer.timestamp?,
          Engine.readClock, available]
  | countNotifications =>
      cases available : cluster.engine.available <;>
        simp [perform, Engine.after, Engine.takesTick, Answer.timestamp?,
          Engine.countNotifications, available]
  | peekClock => exact ⟨rfl, rfl⟩
  | setAvailable available => exact ⟨rfl, rfl⟩
  | openView query =>
      cases available : cluster.engine.available <;>
        simp [perform, Engine.after, Engine.takesTick, Answer.timestamp?, Engine.openSnapshot,
          Engine.readClock, available]
  | fetchRow number =>
      simp only [perform, Engine.after, Engine.takesTick]
      split
      · exact ⟨rfl, rfl⟩
      · split <;> exact ⟨rfl, rfl⟩
  | fetchColumn number =>
      simp only [perform, Engine.after, Engine.takesTick]
      split
      · exact ⟨rfl, rfl⟩
      · split <;> exact ⟨rfl, rfl⟩
  | release number => exact ⟨rfl, rfl⟩

theorem perform_spec (cluster : Cluster) (operation : Operation) :
    (cluster.perform operation).2.engine = cluster.engine.after operation ∧
      (cluster.perform operation).1.tookTick = cluster.engine.takesTick operation := by
  rcases cluster.perform_engine operation with ⟨engine, timestamp⟩
  refine ⟨engine, ?_⟩
  rw [← Answer.isSome_timestamp?, timestamp]
  cases cluster.engine.takesTick operation <;> rfl

/-- Whether the clock can count the ticks of the operations: fewer than `2 ^ 64` will have been
taken when they have been performed. -/
def HasRoomFor (cluster : Cluster) (operations : List Operation) : Prop :=
  cluster.engine.clock.ticks.toNat + Answer.ticks (cluster.performAll operations).1 < UInt64.size

instance (cluster : Cluster) (operations : List Operation) :
    Decidable (cluster.HasRoomFor operations) :=
  inferInstanceAs (Decidable (_ < _))

theorem HasRoomFor.next {cluster : Cluster} {operation : Operation}
    (room : cluster.HasRoomFor [operation])
    (ticked : cluster.engine.takesTick operation = true) :
    cluster.engine.clock.ticks.toNat + 1 < UInt64.size := by
  rw [← (cluster.perform_spec operation).2] at ticked
  simpa [HasRoomFor, ticked] using room

theorem clock_perform {cluster : Cluster} {operation : Operation}
    (room : cluster.HasRoomFor [operation]) :
    (cluster.perform operation).2.engine.clock.ticks.toNat =
      cluster.engine.clock.ticks.toNat + Answer.ticks [(cluster.perform operation).1] := by
  rcases cluster.perform_spec operation with ⟨engine, tick⟩
  simp only [HasRoomFor, performAll_cons, performAll_nil, Answer.ticks_cons, Answer.ticks_nil]
    at room ⊢
  rw [engine, Engine.after_clock, ← tick]
  split
  · next took =>
    simp only [took, if_true] at room
    exact Timestamp.next_toNat room
  · rfl

theorem HasRoomFor.cons {cluster : Cluster} {operation : Operation} {rest : List Operation}
    (room : cluster.HasRoomFor (operation :: rest)) :
    cluster.HasRoomFor [operation] ∧ (cluster.perform operation).2.HasRoomFor rest := by
  have first : cluster.HasRoomFor [operation] := by
    simp only [HasRoomFor, performAll_cons, performAll_nil, Answer.ticks_cons, Answer.ticks_nil]
      at room ⊢
    omega
  refine ⟨first, ?_⟩
  have clock := clock_perform first
  simp only [HasRoomFor, performAll_cons, Answer.ticks_cons, Answer.ticks_nil] at room clock ⊢
  omega

/-- The clock counts the ticks that the answers report. -/
theorem clock_performAll {cluster : Cluster} {operations : List Operation}
    (room : cluster.HasRoomFor operations) :
    (cluster.performAll operations).2.engine.clock.ticks.toNat =
      cluster.engine.clock.ticks.toNat + Answer.ticks (cluster.performAll operations).1 := by
  induction operations generalizing cluster with
  | nil => simp
  | cons operation rest ih =>
      rcases room.cons with ⟨first, later⟩
      have clock := clock_perform first
      simp only [performAll_cons, Answer.ticks_cons, Answer.ticks_nil] at clock ⊢
      rw [ih later, clock]
      omega

theorem hasRoomFor_append {cluster : Cluster} {earlier later : List Operation} :
    cluster.HasRoomFor (earlier ++ later) ↔
      cluster.HasRoomFor earlier ∧ (cluster.performAll earlier).2.HasRoomFor later := by
  constructor
  · intro room
    have first : cluster.HasRoomFor earlier := by
      simp only [HasRoomFor, performAll_append, Answer.ticks_append] at room ⊢
      omega
    refine ⟨first, ?_⟩
    have clock := clock_performAll first
    simp only [HasRoomFor, performAll_append, Answer.ticks_append] at room ⊢
    omega
  · rintro ⟨first, second⟩
    have clock := clock_performAll first
    simp only [HasRoomFor, performAll_append, Answer.ticks_append] at second ⊢
    omega

/-- Opening a view takes as much room as any other call that takes a tick. -/
theorem hasRoomFor_openView {cluster : Cluster} {history : List Operation}
    (room : cluster.HasRoomFor (history ++ [.readClock])) (query : Query) :
    cluster.HasRoomFor (history ++ [.openView query]) := by
  rw [hasRoomFor_append] at room ⊢
  refine ⟨room.1, ?_⟩
  have opening := (perform_spec (cluster.performAll history).2 (.openView query)).2
  have reading := (perform_spec (cluster.performAll history).2 .readClock).2
  simpa [HasRoomFor, opening, reading, Engine.takesTick] using room.2

/-- Clusters with the same engine go through the same engines and ticks, whatever their views. -/
theorem performAll_congr {left right : Cluster} (same : left.engine = right.engine)
    (operations : List Operation) :
    (left.performAll operations).2.engine = (right.performAll operations).2.engine ∧
      Answer.ticks (left.performAll operations).1 =
        Answer.ticks (right.performAll operations).1 := by
  induction operations generalizing left right with
  | nil => exact ⟨same, rfl⟩
  | cons operation rest ih =>
      rcases left.perform_spec operation with ⟨leftEngine, leftTick⟩
      rcases right.perform_spec operation with ⟨rightEngine, rightTick⟩
      have next : (left.perform operation).2.engine = (right.perform operation).2.engine := by
        rw [leftEngine, rightEngine, same]
      rcases ih next with ⟨engines, ticks⟩
      refine ⟨engines, ?_⟩
      simp only [performAll_cons, Answer.ticks_cons]
      rw [leftTick, rightTick, same, ticks]

theorem hasRoomFor_congr {left right : Cluster} (same : left.engine = right.engine)
    (operations : List Operation) : left.HasRoomFor operations ↔ right.HasRoomFor operations := by
  rw [HasRoomFor, HasRoomFor, same, (performAll_congr same operations).2]

theorem performAll_of_ticks_eq_zero {cluster : Cluster} {operations : List Operation}
    (still : Answer.ticks (cluster.performAll operations).1 = 0) :
    (cluster.performAll operations).2.engine.versions = cluster.engine.versions ∧
      (cluster.performAll operations).2.engine.notifications = cluster.engine.notifications := by
  induction operations generalizing cluster with
  | nil => exact ⟨rfl, rfl⟩
  | cons operation rest ih =>
      rcases cluster.perform_spec operation with ⟨engine, tick⟩
      simp only [performAll_cons, Answer.ticks_cons] at still ⊢
      have unticked : cluster.engine.takesTick operation = false := by
        rw [← tick]
        cases took : (cluster.perform operation).1.tookTick with
        | false => rfl
        | true => simp [took] at still
      rcases Engine.after_of_not_takesTick unticked with ⟨versions, notifications⟩
      have stillThen : Answer.ticks ((cluster.perform operation).2.performAll rest).1 = 0 := by
        omega
      rcases ih stillThen with ⟨restVersions, restNotifications⟩
      rw [restVersions, restNotifications, engine]
      exact ⟨versions, notifications⟩

end Cluster

end DataflowOps
