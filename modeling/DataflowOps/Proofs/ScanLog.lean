import Mathlib.Data.Finset.Card
import DataflowOps.Proofs.IntervalText
import DataflowOps.Proofs.Keys
import DataflowOps.Scan.Script

/-!
# Logs of scans

The log of a scan into a collection is told from what the scan returns: a first line that says what
is asked for, and then the lines that belong to the way in which it ended, with the counts that it
returns. The collection holds as many entries more than before as the scan says it has handed out.
-/

namespace DataflowOps

/-- The entries that were handed out, as a scan returns it. -/
def ScanRun.handedOut : Except ScanFailure ScanTally → Nat
  | .ok tally => tally.entries
  | .error error => error.entries

namespace ScanLog

/-- The first line, with the rows that are asked for and the number of patterns. -/
def started (query : Query) : LogLine where
  severity := .debug
  component := "scanner"
  name := "scan_started"
  fields :=
    [("span", .text query.rows.text), ("columns", .number query.patterns.keys.toFinset.card)]
  message? := none

def failed (error : ScanFailure) : LogLine where
  severity := .error
  component := "scanner"
  name := "scan_failed"
  fields := [("entries", .number error.entries), ("error", .text error.cause.message)]
  message? := none

def sinkClosed (tally : ScanTally) : LogLine where
  severity := .info
  component := "scanner"
  name := "scan_sink_closed"
  fields := [("entries", .number tally.entries)]
  message? := none

def noData : LogLine where
  severity := .info
  component := "scanner"
  name := "scan_no_data"
  fields := []
  message? := some "no data found"

def completed (tally : ScanTally) : LogLine where
  severity := .debug
  component := "scanner"
  name := "scan_completed"
  fields := [("rows", .number tally.rows), ("entries", .number tally.entries)]
  message? := none

/-- The lines after the first one, by what the scan returns. -/
def closing : Except ScanFailure ScanTally → List LogLine
  | .error error => [failed error]
  | .ok tally =>
    match tally.outcome with
    | .sinkClosed => [sinkClosed tally, completed tally]
    | .noData => [noData]
    | .completed => [completed tally]

/-- The first line tells which rows are asked for. -/
theorem rows_eq_of_started {query other : Query} (same : started query = started other) :
    query.rows = other.rows := by
  simp only [started, LogLine.mk.injEq, List.cons.injEq, Prod.mk.injEq, FieldValue.text.injEq]
    at same
  exact RowInterval.text_injective same.2.2.2.1.1.2

end ScanLog

theorem ScanLog.line_scanStarted (query : Query) :
    (Event.scanStarted query.rows query.patterns.size).line = started query := by
  have distinct : query.patterns.keys.toFinset.card = query.patterns.size := by
    rw [List.toFinset_card_of_nodup query.patterns.keys_nodup, OrderedMap.keys, List.length_map]
    rfl
  rw [started, distinct]
  rfl

namespace ScanSystem

variable {State : Type} {system : ScanSystem State} {held : State → Nat}

/-- A system whose destination counts the entries that it accepts and reports nothing. -/
structure Counts (system : ScanSystem State) (held : State → Nat) : Prop where
  openView (query : Query) (state : State) : held (system.openView query state).2 = held state
  fetchRow (state : State) : held (system.fetchRow state).2 = held state
  fetchColumn (state : State) : held (system.fetchColumn state).2 = held state
  closeView (state : State) : held (system.closeView state) = held state
  accept (entry : Entry) (state : State) : held (system.accept entry state).2 =
    held state + if (system.accept entry state).1.accepted then 1 else 0
  silent (entry : Entry) (state : State) : (system.accept entry state).1.events = []

/-- What the log of a scan tells that has handed out `entries` entries before and finds `before` of
them at its destination. -/
structure Tells (held : State → Nat) (entries before : Nat) (run : ScanRun State) : Prop where
  lines : run.events.map Event.line = ScanLog.closing run.result
  counted : held run.state + entries = before + ScanRun.handedOut run.result

section Endings

variable {entries before : Nat} {progress : ScanProgress} {state : State}

theorem Counts.tells_fail (counts : system.Counts held) (error : CallFailure)
    (same : progress.entries = entries) (found : held state = before) :
    Tells held entries before (system.fail error progress state) := by
  subst same found
  exact ⟨rfl, congrArg (· + progress.entries) (counts.closeView state)⟩

theorem Counts.tells_complete (counts : system.Counts held) (same : progress.entries = entries)
    (found : held state = before) :
    Tells held entries before (system.complete progress state) := by
  subst same found
  refine ⟨?_, congrArg (· + progress.entries) (counts.closeView state)⟩
  simp only [complete]
  split <;> rfl

theorem Counts.tells_stop (counts : system.Counts held) (same : progress.entries = entries)
    (found : held state = before) :
    Tells held entries before (system.stop progress state) := by
  subst same found
  exact ⟨rfl, congrArg (· + progress.entries) (counts.closeView state)⟩

theorem Tells.after {run : ScanRun State} (told : Tells held entries before run) :
    Tells held entries before (run.after []) := told

/-- An entry that was accepted is one more of those handed out and of those at the destination. -/
theorem Tells.of_accepted {run : ScanRun State}
    (told : Tells held (entries + 1) (before + 1) run) : Tells held entries before run := by
  refine ⟨told.lines, ?_⟩
  have counted := told.counted
  omega

end Endings

/-- Whatever is left of a scan, its log tells how it ends. -/
theorem Counts.tells_of_fetchFrom (counts : system.Counts held) {timeout : Nat} (limit : Nat)
    (row : Option Bytes) (progress : ScanProgress) (state : State) {run : ScanRun State}
    (ran : system.fetchFrom timeout limit row progress state = some run) :
    Tells held progress.entries (held state) run := by
  induction limit generalizing row progress state run with
  | zero => cases ran
  | succ limit ih =>
      cases row with
      | none =>
          cases fetched : system.fetchRow state with
          | mk reply next =>
              have kept : held next = held state := by
                rw [← counts.fetchRow state, fetched]
              simp only [fetchFrom, fetched] at ran
              split at ran
              · obtain rfl := Option.some.inj ran
                exact counts.tells_fail _ rfl kept
              · obtain rfl := Option.some.inj ran
                exact counts.tells_complete rfl kept
              · have told := ih _ _ next ran
                rw [kept] at told
                exact told
      | some row =>
          cases fetched : system.fetchColumn state with
          | mk reply next =>
              have kept : held next = held state := by
                rw [← counts.fetchColumn state, fetched]
              simp only [fetchFrom, fetched] at ran
              split at ran
              · obtain rfl := Option.some.inj ran
                exact counts.tells_fail _ rfl kept
              · have told := ih _ _ next ran
                rw [kept] at told
                exact told
              · next column value received =>
                have taken := counts.accept ⟨row, column, value⟩ next
                rw [counts.silent ⟨row, column, value⟩ next] at ran
                split at ran
                · next accepted =>
                  rcases Option.map_eq_some_iff.1 ran with ⟨later, followed, rfl⟩
                  have told := ih _ _ _ followed
                  rw [taken, if_pos accepted, kept] at told
                  exact told.of_accepted.after
                · next refused =>
                  obtain rfl := Option.some.inj ran
                  rw [if_neg refused, Nat.add_zero, kept] at taken
                  apply Tells.after
                  exact counts.tells_stop rfl taken

/-- The log of a whole scan tells what was asked for and how the scan ends. -/
theorem Counts.tells_of_scan (counts : system.Counts held) {timeout limit : Nat} {query : Query}
    {state : State} {run : ScanRun State}
    (ran : system.scan timeout limit query state = some run) :
    run.events.map Event.line = ScanLog.started query :: ScanLog.closing run.result ∧
      held run.state = held state + ScanRun.handedOut run.result := by
  have kept := counts.openView query state
  simp only [scan] at ran
  split at ran
  · obtain rfl := Option.some.inj ran
    refine ⟨?_, kept⟩
    simp only [List.map_cons, ScanLog.line_scanStarted]
    rfl
  · rcases Option.map_eq_some_iff.1 ran with ⟨later, followed, rfl⟩
    have told := counts.tells_of_fetchFrom _ _ _ _ followed
    refine ⟨?_, ?_⟩
    · simp only [ScanRun.after, List.map_append, told.lines, List.map_cons,
        ScanLog.line_scanStarted]
      rfl
    · rw [← kept]
      exact told.counted

/-- A bound on the fetches that a scan still makes, inside a row or between two rows. -/
structure Bounds (system : ScanSystem State) (timeout : Nat)
    (left : (row : Option Bytes) → State → Nat) : Prop where
  positive (row : Option Bytes) (state : State) : 0 < left row state
  enterRow {state : State} {row : Bytes}
    (found : ((system.fetchRow state).1.within timeout).result = .ok (some row)) :
    left (some row) (system.fetchRow state).2 < left none state
  leaveRow {state : State} (row : Bytes)
    (found : ((system.fetchColumn state).1.within timeout).result = .ok none) :
    left none (system.fetchColumn state).2 < left (some row) state
  accept {state : State} (row : Bytes) {column : Column} {value : Bytes}
    (found : ((system.fetchColumn state).1.within timeout).result = .ok (some (column, value))) :
    left (some row) (system.accept ⟨row, column, value⟩ (system.fetchColumn state).2).2 <
      left (some row) state

/-- A scan ends within as many fetches as it still makes. -/
theorem Bounds.exists_run {timeout : Nat} {left : (row : Option Bytes) → State → Nat}
    (bounds : system.Bounds timeout left) (limit : Nat) (row : Option Bytes)
    (progress : ScanProgress) (state : State) (enough : left row state ≤ limit) :
    ∃ run, system.fetchFrom timeout limit row progress state = some run := by
  induction limit generalizing row progress state with
  | zero => exact absurd enough (Nat.not_le_of_lt (bounds.positive row state))
  | succ limit ih =>
      cases row with
      | none =>
          rw [fetchFrom]
          dsimp only
          split
          · exact ⟨_, rfl⟩
          · exact ⟨_, rfl⟩
          · next row found =>
            have fewer := bounds.enterRow found
            exact ih (some row) _ _ (Nat.le_of_lt_succ (Nat.lt_of_lt_of_le fewer enough))
      | some row =>
          rw [fetchFrom]
          dsimp only
          split
          · exact ⟨_, rfl⟩
          · next found =>
            have fewer := bounds.leaveRow row found
            exact ih none _ _ (Nat.le_of_lt_succ (Nat.lt_of_lt_of_le fewer enough))
          · next column value found =>
            split
            · have fewer := bounds.accept row found
              rcases ih (some row) _ _ (Nat.le_of_lt_succ (Nat.lt_of_lt_of_le fewer enough)) with
                ⟨run, followed⟩
              exact ⟨_, congrArg (Option.map _) followed⟩
            · exact ⟨_, rfl⟩

theorem Bounds.exists_scan {timeout limit : Nat} {left : (row : Option Bytes) → State → Nat}
    (bounds : system.Bounds timeout left) (query : Query) (state : State)
    (enough : left none (system.openView query state).2 ≤ limit) :
    ∃ run, system.scan timeout limit query state = some run := by
  simp only [scan]
  split
  · exact ⟨_, rfl⟩
  · rcases bounds.exists_run limit none _ _ enough with ⟨run, followed⟩
    exact ⟨_, congrArg (Option.map _) followed⟩

end ScanSystem

namespace ScanScript

theorem counts_collecting :
    (system EntryCollection.accept).Counts fun state => state.2.entries.length := by
  constructor
  case openView => exact fun _ _ => rfl
  case fetchRow =>
    rintro ⟨script, sink⟩
    simp only [system]
    split <;> rfl
  case fetchColumn =>
    rintro ⟨script, sink⟩
    simp only [system]
    split <;> rfl
  case closeView => exact fun _ => rfl
  case accept =>
    intro entry state
    simp only [system, EntryCollection.accept]
    split <;> simp
  case silent =>
    intro entry state
    simp only [system, EntryCollection.accept]
    split <;> rfl

/-- Fetches that end a scan of a script. Inside a row, those of its columns and its end come
first. -/
def fetchesLeft (row : Option Bytes) (script : ScanScript) : Nat :=
  match row with
  | none => script.fetchLimit
  | some _ => script.columns.length + 1 + script.fetchLimit

theorem bounds_fetchesLeft {Sink : Type} (accept : Entry → Sink → Delivery × Sink)
    (timeout : Nat) :
    (system accept).Bounds timeout fun row state => fetchesLeft row state.1 := by
  constructor
  case positive =>
    rintro row ⟨⟨opening, rows, columns, closedViews⟩, sink⟩
    have limit : 0 < rows.foldr (fun row fetches => row.columns.length + 2 + fetches) 1 := by
      cases rows with
      | nil => exact Nat.one_pos
      | cons row rest => exact Nat.lt_of_lt_of_le (by omega) (Nat.le_add_right _ _)
    cases row with
    | none => exact limit
    | some row =>
        simp only [fetchesLeft]
        omega
  case enterRow =>
    rintro ⟨⟨opening, rows, columns, closedViews⟩, sink⟩ row found
    cases rows with
    | nil => simp [system] at found
    | cons row rest =>
        simp only [system, fetchesLeft, fetchLimit, List.foldr_cons]
        omega
  case leaveRow =>
    rintro ⟨⟨opening, rows, columns, closedViews⟩, sink⟩ row found
    cases columns with
    | nil =>
        simp only [system, fetchesLeft, fetchLimit]
        omega
    | cons reply rest =>
        simp only [system, fetchesLeft, fetchLimit]
        omega
  case accept =>
    rintro ⟨⟨opening, rows, columns, closedViews⟩, sink⟩ row column value found
    cases columns with
    | nil => simp [system] at found
    | cons reply rest =>
        simp only [system, fetchesLeft, fetchLimit, List.length_cons]
        omega

/-- The log of a scan of a script into a collection is a faithful trace of how it ends. It begins
with a line that names the number of patterns and tells which rows are asked for. The lines after
that, with all of their counts, are those of what the scan returns. The collection holds as many
entries as the scan says it has handed out, besides those it held before. -/
theorem scan_log_tells_result (timeout : Nat) (query : Query) (script : ScanScript)
    (collection : EntryCollection) :
    ∃ run, script.scan EntryCollection.accept timeout query collection = some run ∧
      run.events.map Event.line = ScanLog.started query :: ScanLog.closing run.result ∧
      (∀ other, (run.events.map Event.line).head? = some (ScanLog.started other) →
        other.rows = query.rows) ∧
      run.state.2.entries.length =
        collection.entries.length + ScanRun.handedOut run.result := by
  rcases (bounds_fetchesLeft EntryCollection.accept timeout).exists_scan query
    (script, collection) (Nat.le_refl _) with ⟨run, ran⟩
  rcases counts_collecting.tells_of_scan ran with ⟨lines, counted⟩
  refine ⟨run, ran, lines, ?_, counted⟩
  intro other first
  rw [lines, List.head?_cons] at first
  exact ScanLog.rows_eq_of_started (Option.some.inj first).symm

/-- A scan of a row whose second entry is refused. -/
example :
    let query : Query := ⟨.between (some [109]) none, .empty⟩
    let script : ScanScript :=
      { opening := .immediate (.ok ())
        rows := [⟨.immediate (.ok [110]), [.immediate (.ok (⟨[10], []⟩, [5])),
          .immediate (.ok (⟨[11], []⟩, [6]))]⟩] }
    (script.scan EntryCollection.accept 500 query { limit := some 1 }).map
        (·.events.map Event.line) =
      some [ScanLog.started query, ScanLog.sinkClosed ⟨1, 1, .sinkClosed⟩,
        ScanLog.completed ⟨1, 1, .sinkClosed⟩] := by
  rfl

end ScanScript

end DataflowOps
