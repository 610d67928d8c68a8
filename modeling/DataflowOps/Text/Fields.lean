/-!
# Separated fields

A sequence is cut at every separator. Empty fields are kept, so that a sequence has one field more
than separators.
-/

namespace DataflowOps.Fields

variable {Symbol : Type} [DecidableEq Symbol]

def extendFirst (symbol : Symbol) : List (List Symbol) → List (List Symbol)
  | [] => [[symbol]]
  | field :: rest => (symbol :: field) :: rest

/-- The fields of a sequence. -/
def split (separator : Symbol) : List Symbol → List (List Symbol)
  | [] => [[]]
  | symbol :: rest =>
    if symbol = separator then [] :: split separator rest
    else extendFirst symbol (split separator rest)

end DataflowOps.Fields
