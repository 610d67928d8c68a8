import DataflowOps.Duration

/-!
# Failed calls

How a round trip to the engine can fail, and the text in which each failure is reported. An engine
that cannot be reached or does not answer in time is told apart from one that answers with an error.
-/

namespace DataflowOps

inductive CallFailure where
  | unreachable (reason : String)
  | tooSlow (limit : Duration)
  | refused (reason : String)
  deriving DecidableEq, Repr

namespace CallFailure

/-- Whether the engine could not be reached or was too slow to answer. -/
def isOutage : CallFailure → Bool
  | unreachable _ | tooSlow _ => true
  | refused _ => false

def message : CallFailure → String
  | unreachable reason => "engine unavailable: " ++ reason
  | tooSlow limit => "engine did not respond within " ++ limit.text
  | refused reason => "engine error: " ++ reason

end CallFailure

end DataflowOps
