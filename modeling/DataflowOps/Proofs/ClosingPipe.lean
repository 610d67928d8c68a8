import Mathlib.Algebra.GroupWithZero.Nat
import DataflowOps.Proofs.PrintedScan
import DataflowOps.Proofs.TextRoundTrip

/-!
# Printing to a pipe that closes

Entries and free lines are printed one after the other, also after a failure. Each line is written
in pieces, some of which may be empty, and the room of the pipe can end within any of them. This
file says which bytes the pipe takes in the end and which of the calls succeed.
-/

namespace DataflowOps

namespace OutputPipe

/-- Writes pieces one after the other. Nothing is written for an empty piece, and the first piece
that fails is the last one written. -/
def writePieces : List Bytes → OutputPipe → Bool × OutputPipe
  | [], pipe => (true, pipe)
  | piece :: rest, pipe =>
    if piece = [] then writePieces rest pipe
    else
      match pipe.write piece with
      | (true, next) => writePieces rest next
      | (false, next) => (false, next)

/-- Writing in pieces takes the same bytes as writing at once, and succeeds in the same cases. -/
theorem writePieces_eq_write (pieces : List Bytes) (pipe : OutputPipe) :
    pipe.writePieces pieces = pipe.write pieces.flatten := by
  induction pieces generalizing pipe with
  | nil => exact (write_nil pipe).symm
  | cons piece rest ih =>
      rw [writePieces, List.flatten_cons]
      split
      · next empty =>
        rw [ih, empty, List.nil_append]
      · split
        · next next written =>
          rw [ih, write_append, written, Bool.true_and]
        · next next written =>
          rw [write_append_of_cut (congrArg Prod.fst written), written]

/-- A text is taken whole exactly if its front was and its end, which has some byte, is. -/
theorem write_append_fst {later : Bytes} (someByte : later ≠ []) (earlier : Bytes)
    (pipe : OutputPipe) :
    (pipe.write (earlier ++ later)).1 = ((pipe.write earlier).2.write later).1 := by
  have positive : 0 < later.length := List.length_pos_iff.2 someByte
  cases limited : pipe.room with
  | none => simp [write, limited]
  | some room =>
      simp only [write, limited, List.length_append, decide_eq_decide]
      omega

/-- Once a text was cut, a pipe takes nothing more. -/
theorem write_of_cut {earlier later : Bytes} {pipe : OutputPipe}
    (cut : (pipe.write earlier).1 = false) (someByte : later ≠ []) :
    (pipe.write earlier).2.write later = (false, (pipe.write earlier).2) := by
  have stays : ((pipe.write earlier).2.write later).2 = (pipe.write earlier).2 := by
    have whole := congrArg Prod.snd (write_append_of_cut cut later)
    rwa [write_append] at whole
  have fails : ((pipe.write earlier).2.write later).1 = false := by
    rw [← write_append_fst someByte, write_append_of_cut cut, cut]
  exact Prod.ext fails stays

end OutputPipe

/-- A call that prints a line: that of an entry, or one of free text. -/
inductive PrintCall where
  | entry (entry : Entry)
  | line (text : String)

namespace PrintCall

def perform : PrintCall → OutputPipe → Delivery × OutputPipe
  | entry printed, pipe => pipe.printEntry printed
  | line text, pipe => pipe.printLine text

/-- The pieces in which a line is written. -/
def pieces : PrintCall → List String
  | entry ⟨row, column, value⟩ =>
    [Utf8.lenient row, " ", Utf8.lenient column.family, ":", Utf8.lenient column.qualifier, "\t",
      Utf8.lenient value, "\n"]
  | line text => [text, "\n"]

/-- The bytes of the line that a call prints. -/
def bytes : PrintCall → Bytes
  | entry printed => printed.line
  | line text => Utf8.encode (text ++ "\n")

/-- Performs calls one after the other, whether or not they succeed. -/
def performAll : List PrintCall → OutputPipe → List Delivery × OutputPipe
  | [], pipe => ([], pipe)
  | call :: rest, pipe =>
    let (delivery, next) := call.perform pipe
    let (later, last) := performAll rest next
    (delivery :: later, last)

theorem bytes_eq_flatten (call : PrintCall) :
    call.bytes = (call.pieces.map Utf8.encode).flatten := by
  cases call with
  | entry printed =>
      simp only [bytes, pieces, Entry.line, Utf8.encode_append, List.map_cons, List.map_nil,
        List.flatten_cons, List.flatten_nil, List.append_nil, List.append_assoc]
  | line text =>
      simp only [bytes, pieces, Utf8.encode_append, List.map_cons, List.map_nil,
        List.flatten_cons, List.flatten_nil, List.append_nil]

theorem bytes_ne_nil (call : PrintCall) : call.bytes ≠ [] := by
  have feed : Utf8.encode "\n" ≠ [] := by decide
  cases call with
  | entry printed =>
      rw [bytes, Entry.line, Utf8.encode_append]
      exact List.append_ne_nil_of_right_ne_nil _ feed
  | line text =>
      rw [bytes, Utf8.encode_append]
      exact List.append_ne_nil_of_right_ne_nil _ feed

theorem perform_eq (call : PrintCall) (pipe : OutputPipe) :
    call.perform pipe =
      (OutputPipe.delivery (pipe.write call.bytes).1, (pipe.write call.bytes).2) := by
  cases call with
  | entry printed => exact pipe.printEntry_eq printed
  | line text => rfl

theorem performAll_cons (call : PrintCall) (rest : List PrintCall) (pipe : OutputPipe) :
    performAll (call :: rest) pipe =
      (OutputPipe.delivery (pipe.write call.bytes).1 ::
          (performAll rest (pipe.write call.bytes).2).1,
        (performAll rest (pipe.write call.bytes).2).2) := by
  simp only [performAll, perform_eq]

/-- What calls leave behind is what writing all their lines at once would leave. -/
theorem performAll_snd (calls : List PrintCall) (pipe : OutputPipe) :
    (performAll calls pipe).2 = (pipe.write (calls.flatMap bytes)).2 := by
  induction calls generalizing pipe with
  | nil => rw [List.flatMap_nil, OutputPipe.write_nil, performAll]
  | cons call rest ih => rw [performAll_cons, ih, List.flatMap_cons, OutputPipe.write_append]

/-- A call succeeds exactly if all lines up to its own would be taken whole if written at once. -/
theorem getElem?_performAll_fst {calls : List PrintCall} {index : Nat}
    (inside : index < calls.length) (pipe : OutputPipe) :
    (performAll calls pipe).1[index]? = some (OutputPipe.delivery
      (pipe.write ((calls.take (index + 1)).flatMap bytes)).1) := by
  induction calls generalizing index pipe with
  | nil => cases inside
  | cons call rest ih =>
      rw [performAll_cons]
      cases index with
      | zero => simp
      | succ index =>
          have within : index < rest.length := Nat.lt_of_succ_lt_succ inside
          have someByte : (rest.take (index + 1)).flatMap bytes ≠ [] := by
            cases rest with
            | nil => cases within
            | cons next others =>
                rw [List.take_succ_cons, List.flatMap_cons]
                exact List.append_ne_nil_of_left_ne_nil next.bytes_ne_nil _
          rw [List.getElem?_cons_succ, ih within, List.take_succ_cons, List.flatMap_cons,
            OutputPipe.write_append_fst someByte]

theorem length_performAll_fst (calls : List PrintCall) (pipe : OutputPipe) :
    (performAll calls pipe).1.length = calls.length := by
  induction calls generalizing pipe with
  | nil => rfl
  | cons call rest ih => rw [performAll_cons, List.length_cons, ih, List.length_cons]

/-- After a call that fails, all later calls fail and leave the pipe as it is. -/
theorem performAll_of_refused {call : PrintCall} {pipe : OutputPipe}
    (refused : (call.perform pipe).1.accepted = false) (later : List PrintCall) :
    performAll later (call.perform pipe).2 =
      (List.replicate later.length (OutputPipe.delivery false), (call.perform pipe).2) := by
  rw [perform_eq] at refused ⊢
  have cut : (pipe.write call.bytes).1 = false := by
    cases written : (pipe.write call.bytes).1 with
    | false => rfl
    | true =>
        rw [written] at refused
        cases refused
  induction later with
  | nil => rfl
  | cons next rest ih =>
      rw [performAll_cons, OutputPipe.write_of_cut cut next.bytes_ne_nil, ih]
      rfl

/-- What calls write to a pipe that takes no more than a budget: the front of their lines, as far as
it goes. A call succeeds if the lines up to its own are within the budget, and after one that fails
nothing is written. In which pieces the lines are written makes no difference. -/
theorem calls_fill_pipe (budget : Nat) (flushFails : Bool) (calls : List PrintCall) :
    (performAll calls ⟨some budget, flushFails, []⟩).2.written =
        (calls.flatMap bytes).take (min budget (calls.flatMap bytes).length) ∧
      (performAll calls ⟨some budget, flushFails, []⟩).1.length = calls.length ∧
      (∀ index, index < calls.length →
        (performAll calls ⟨some budget, flushFails, []⟩).1[index]? = some (OutputPipe.delivery
          (decide (((calls.take (index + 1)).map fun call => call.bytes.length).sum ≤ budget)))) ∧
      (∀ (call : PrintCall) pipe, (call.perform pipe).1.accepted = false → ∀ later,
        performAll later (call.perform pipe).2 =
          (List.replicate later.length (OutputPipe.delivery false), (call.perform pipe).2)) ∧
      ∀ (call : PrintCall) (pipe : OutputPipe),
        (call.pieces.map Utf8.encode).flatten = call.bytes ∧
          ∀ pieces : List Bytes, pieces.flatten = call.bytes →
            call.perform pipe =
              (OutputPipe.delivery (pipe.writePieces pieces).1, (pipe.writePieces pieces).2) := by
  have limited := OutputPipe.write_of_limited budget flushFails []
  refine ⟨?_, length_performAll_fst calls _, ?_, ?_, ?_⟩
  · rw [performAll_snd, (limited _).2, List.nil_append, ← List.take_eq_take_min]
  · intro index inside
    rw [getElem?_performAll_fst inside, (limited _).1, List.length_flatMap]
  · intro call pipe refused later
    exact performAll_of_refused refused later
  · intro call pipe
    refine ⟨call.bytes_eq_flatten.symm, ?_⟩
    intro pieces whole
    rw [OutputPipe.writePieces_eq_write, whole, perform_eq]

/-- A malformed value between two empty lines. -/
def malformedEntry : List PrintCall :=
  [.line "", .entry ⟨[], ⟨[102], []⟩, [255]⟩, .line ""]

theorem calls_fill_pipe_malformedEntry :
    (performAll malformedEntry ⟨some 3, false, []⟩).2.written = Utf8.encode "\n f" ∧
      (performAll malformedEntry ⟨some 3, false, []⟩).1[0]? = some ⟨true, []⟩ ∧
      (performAll malformedEntry ⟨some 3, false, []⟩).1[1]? = some (OutputPipe.delivery false) ∧
      (performAll malformedEntry ⟨some 3, false, []⟩).1[2]? = some (OutputPipe.delivery false) := by
  rcases calls_fill_pipe 3 false malformedEntry with ⟨written, _, answers, _⟩
  refine ⟨written.trans ?_, (answers 0 ?_).trans ?_, (answers 1 ?_).trans ?_,
    (answers 2 ?_).trans ?_⟩ <;> decide

end PrintCall

end DataflowOps
