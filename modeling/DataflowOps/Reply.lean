import DataflowOps.CallFailure
import DataflowOps.Pause

/-!
# Replies and their time limit

A call to the engine is answered after some delay, or never. The caller waits for at most the retry
timeout; an answer that needs no longer than that counts, so an immediate answer is never refused.
-/

namespace DataflowOps

/-- What becomes of one call: a pause of `delay` whole milliseconds and then the result, or silence.
The timer keeps no finer time. -/
structure Reply (Value : Type) where
  delay : Nat := 0
  result : Option (Except CallFailure Value)

structure Received (Value : Type) where
  result : Except CallFailure Value
  elapsed : Nat

theorem CallFailure.bind_eq_ok_iff {Value Result : Type} {call : Except CallFailure Value}
    {next : Value → Except CallFailure Result} {result : Result} :
    call >>= next = .ok result ↔ ∃ value, call = .ok value ∧ next value = .ok result := by
  cases call with
  | error error => simp [bind, Except.bind]
  | ok value => simp [bind, Except.bind]

namespace Reply

variable {Value : Type}

def immediate (result : Except CallFailure Value) : Reply Value :=
  ⟨0, some result⟩

def map {Result : Type} (function : Value → Result) (reply : Reply Value) : Reply Result :=
  ⟨reply.delay, reply.result.map (·.map function)⟩

/-- The reply as received by a caller who waits for at most `timeout` milliseconds. -/
def within (timeout : Nat) (reply : Reply Value) : Received Value :=
  match reply.result with
  | some result =>
    let delay := Pause.elapsed reply.delay
    if delay ≤ timeout then ⟨result, delay⟩
    else ⟨.error (.tooSlow (.ofMilliseconds timeout)), timeout⟩
  | none => ⟨.error (.tooSlow (.ofMilliseconds timeout)), timeout⟩

@[simp]
theorem within_immediate (timeout : Nat) (result : Except CallFailure Value) :
    (immediate result).within timeout = ⟨result, 0⟩ := by
  simp [within, immediate, Pause.elapsed]

/-- What a caller is told who waits for at most `timeout` milliseconds. -/
def outcome (timeout : Nat) (reply : Reply Value) : Except CallFailure Value :=
  match reply.result with
  | some result =>
    if reply.delay ≤ timeout then result else .error (.tooSlow (.ofMilliseconds timeout))
  | none => .error (.tooSlow (.ofMilliseconds timeout))

/-- How long such a caller waits. -/
def duration (timeout : Nat) (reply : Reply Value) : Nat :=
  if reply.result.isSome then min reply.delay timeout else timeout

theorem within_of_delay_le {reply : Reply Value} (short : reply.delay ≤ Pause.longest)
    (timeout : Nat) : reply.within timeout = ⟨reply.outcome timeout, reply.duration timeout⟩ := by
  rcases reply with ⟨delay, _ | result⟩
  · rfl
  · simp only [within, outcome, duration, Pause.elapsed_of_le_longest short]
    split
    · next inTime => simp [Nat.min_eq_left inTime]
    · next late => simp [Nat.min_eq_right (Nat.le_of_not_le late)]

theorem outcome_map {Result : Type} (function : Value → Result) (timeout : Nat)
    (reply : Reply Value) :
    (reply.map function).outcome timeout = (reply.outcome timeout).map function := by
  rcases reply with ⟨delay, _ | result⟩
  · rfl
  · by_cases inTime : delay ≤ timeout <;> simp [outcome, map, inTime, Except.map]

theorem duration_map {Result : Type} (function : Value → Result) (timeout : Nat)
    (reply : Reply Value) : (reply.map function).duration timeout = reply.duration timeout := by
  simp [duration, map]

theorem within_map_of_delay_le {Result : Type} (function : Value → Result) {reply : Reply Value}
    (short : reply.delay ≤ Pause.longest) (timeout : Nat) :
    (reply.map function).within timeout =
      ⟨(reply.outcome timeout).map function, reply.duration timeout⟩ := by
  have mapped : (reply.map function).delay ≤ Pause.longest := short
  rw [within_of_delay_le mapped, outcome_map, duration_map]

end Reply

end DataflowOps
