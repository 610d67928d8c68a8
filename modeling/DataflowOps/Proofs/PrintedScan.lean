import DataflowOps.Command.Scan
import DataflowOps.Proofs.ScanContents
import DataflowOps.Proofs.Selection

/-!
# What a scan prints

The scan command prints a banner, the lines of the entries and perhaps a last line. Whatever pipe
it prints to, the bytes that the pipe takes are those of this text, written at once. From this
follow what an unlimited pipe takes and how a pipe that closes cuts it.
-/

namespace DataflowOps

namespace OutputPipe

/-- Writing bytes in two parts takes the same bytes as writing them at once. -/
theorem write_append (earlier later : Bytes) (pipe : OutputPipe) :
    pipe.write (earlier ++ later) =
      ((pipe.write earlier).1 && ((pipe.write earlier).2.write later).1,
        ((pipe.write earlier).2.write later).2) := by
  cases limited : pipe.room with
  | none => simp [write, limited]
  | some room =>
      simp only [write, limited, List.length_append, List.take_append, List.append_assoc,
        Nat.sub_sub, Prod.mk.injEq, and_true]
      rw [← Bool.decide_and, decide_eq_decide]
      omega

/-- A pipe that has cut a text takes nothing more. -/
theorem write_append_of_cut {earlier : Bytes} {pipe : OutputPipe}
    (cut : (pipe.write earlier).1 = false) (later : Bytes) :
    pipe.write (earlier ++ later) = pipe.write earlier := by
  cases limited : pipe.room with
  | none => simp [write, limited] at cut
  | some room =>
      simp only [write, limited, decide_eq_false_iff_not, Nat.not_le] at cut
      simp [write, limited, Nat.not_le.2 cut, List.take_append_of_le_length, Nat.le_of_lt cut]
      omega

theorem write_of_unlimited {pipe : OutputPipe} (unlimited : pipe.room = none) (bytes : Bytes) :
    pipe.write bytes = (true, { pipe with written := pipe.written ++ bytes }) := by
  simp [write, unlimited]

theorem write_of_limited (room : Nat) (flushFails : Bool) (written bytes : Bytes) :
    (write bytes ⟨some room, flushFails, written⟩).1 = decide (bytes.length ≤ room) ∧
      (write bytes ⟨some room, flushFails, written⟩).2.written = written ++ bytes.take room :=
  ⟨rfl, rfl⟩

theorem write_nil (pipe : OutputPipe) : pipe.write [] = (true, pipe) := by
  rcases pipe with ⟨_ | room, flushFails, written⟩ <;> simp [write]

end OutputPipe

namespace Entry

/-- The bytes that an entry is printed as. -/
def line (entry : Entry) : Bytes :=
  Utf8.encode (Utf8.lenient entry.row ++ " " ++ Utf8.lenient entry.column.family ++ ":" ++
    Utf8.lenient entry.column.qualifier ++ "\t" ++ Utf8.lenient entry.value ++ "\n")

def lines (entries : List Entry) : Bytes :=
  entries.flatMap line

end Entry

theorem OutputPipe.printEntry_eq (entry : Entry) (pipe : OutputPipe) :
    pipe.printEntry entry =
      (OutputPipe.delivery (pipe.write entry.line).1, (pipe.write entry.line).2) := by
  have text : entry.text = Utf8.lenient entry.row ++ " " ++ Utf8.lenient entry.column.family ++
      ":" ++ Utf8.lenient entry.column.qualifier ++ "\t" ++ Utf8.lenient entry.value := by
    simp only [Entry.text, Column.text, String.append_assoc]
    rfl
  simp only [OutputPipe.printEntry, OutputPipe.printLine, OutputPipe.writeLine, text]
  rfl

namespace ScannedCluster

/-- The entries that a query asks for, of those visible to a scan opened now. -/
def visibleEntries (query : Query) (cluster : Cluster) : List Entry :=
  ((opened cluster).engine.visibleAt cluster.engine.clock.next).filter query.covers

variable {cluster : Cluster}

theorem undisturbed_printEntry {readAt : Timestamp} {visible : List Entry}
    (sees : cluster.engine.visibleAt readAt = visible) (left : List Entry) (pipe : OutputPipe) :
    Undisturbed ScanCommand.printEntry readAt visible left cluster pipe := by
  induction left generalizing pipe with
  | nil => exact sees
  | cons entry rest ih => exact ⟨sees, fun _ => ih _⟩

/-- That a scan has printed entries, as far as the pipe takes them, and has left the cluster as it
was. It tells that there was no data in a given case alone. -/
structure Printed (entries : List Entry) (pipe : OutputPipe) (cluster : Cluster) (noData : Prop)
    (run : ScanRun (ScannedCluster OutputPipe)) : Prop where
  left : run.state.cluster = cluster
  taken : run.state.sink = (pipe.write (Entry.lines entries)).2
  told : ∃ tally, run.result = .ok tally ∧ (tally.outcome = .noData ↔ noData)

theorem offer_printEntry (available : cluster.engine.available = true) (entries : List Entry)
    (last : Option Bytes) (progress : ScanProgress) (counted : last ≠ none → 0 < progress.rows)
    (pipe : OutputPipe) :
    Printed entries pipe cluster (progress.rows = 0 ∧ entries = [])
      (offer ScanCommand.printEntry entries last progress cluster pipe) := by
  induction entries generalizing last progress pipe with
  | nil =>
      have nothing : (pipe.write (Entry.lines [])).2 = pipe := by
        rw [Entry.lines, List.flatMap_nil, OutputPipe.write_nil]
      simp only [offer, available, if_true, ScanSystem.complete]
      refine ⟨rfl, nothing.symm, _, rfl, ?_⟩
      by_cases noRows : progress.rows = 0 <;> simp [noRows]
  | cons entry rest ih =>
      have step : Entry.lines (entry :: rest) = entry.line ++ Entry.lines rest := rfl
      -- Whether or not the entry begins a row, at least one row is counted from here on: so a scan
      -- that has printed an entry cannot end without data.
      let rowCounted : ScanProgress :=
        if last = some entry.row then progress else { progress with rows := progress.rows + 1 }
      have someRow : 0 < rowCounted.rows := by
        simp only [rowCounted]
        split
        · next same => exact counted (same ▸ Option.some_ne_none _)
        · exact Nat.succ_pos _
      cases fits : (pipe.write entry.line).1 with
      | false =>
          simp only [offer, available, if_true, ScanCommand.printEntry, OutputPipe.printEntry_eq,
            fits, OutputPipe.delivery, Bool.false_eq_true, if_false, ScanSystem.stop]
          refine ⟨rfl, ?_, _, rfl, by simp⟩
          rw [step, OutputPipe.write_append_of_cut fits]
          rfl
      | true =>
          have later := ih (some entry.row)
            { rowCounted with entries := rowCounted.entries + 1 } (fun _ => someRow)
            (pipe.write entry.line).2
          rcases later.told with ⟨tally, result, outcome⟩
          simp only [offer, available, if_true, ScanCommand.printEntry, OutputPipe.printEntry_eq,
            fits, OutputPipe.delivery]
          refine ⟨later.left, ?_, tally, result, ?_⟩
          · rw [step, OutputPipe.write_append]
            exact later.taken
          · rw [outcome]
            simp [Nat.ne_of_gt someRow]

/-- A scan that finds the engine available prints the visible entries. -/
theorem scan_printEntry (available : cluster.engine.available = true) (timeout : Nat)
    (query : Query) (pipe : OutputPipe) :
    ∃ run, scan ScanCommand.printEntry timeout query cluster pipe = some run ∧
      Printed (visibleEntries query cluster) pipe (opened cluster)
        (visibleEntries query cluster = []) run := by
  have availableThen : (opened cluster).engine.available = true := available
  have printed := offer_printEntry availableThen (visibleEntries query cluster) none {}
    (fun counted => absurd rfl counted) pipe
  rcases printed.told with ⟨tally, result, outcome⟩
  refine ⟨_, scan_eq_offer available timeout query (undisturbed_printEntry rfl _ pipe), ?_⟩
  exact ⟨printed.left, printed.taken, tally, result, outcome.trans (and_iff_right rfl)⟩

end ScannedCluster

namespace ScanCommand

/-- What the command prints, how it ends when its banner is printed, and the cluster that it then
leaves behind. -/
structure Printout where
  banner : Bytes
  entries : Bytes
  trailer : Bytes
  exit : ExitStatus
  cluster : Cluster

namespace Printout

/-- All that the command prints. -/
def text (printout : Printout) : Bytes :=
  printout.banner ++ printout.entries ++ printout.trailer

end Printout

def bannerLine (settings : Settings) : Bytes :=
  Utf8.encode (banner settings ++ "\n")

/-- The printout of a scan for a query. -/
def printout (settings : Settings) (query : Query) (cluster : Cluster) : Printout where
  banner := bannerLine settings
  entries :=
    if cluster.engine.available then Entry.lines (ScannedCluster.visibleEntries query cluster)
    else []
  trailer :=
    if cluster.engine.available then
      if ScannedCluster.visibleEntries query cluster = [] then Utf8.encode "\nNo data found\n\n"
      else []
    else Utf8.encode "Scan failed - engine unavailable: memory engine is offline\n"
  exit := if cluster.engine.available then .success else .engineFailure
  cluster := if cluster.engine.available then ScannedCluster.opened cluster else cluster

theorem printout_banner (settings : Settings) (query : Query) (cluster : Cluster) :
    (printout settings query cluster).banner = bannerLine settings := rfl

variable {settings : Settings} {options : ScanOptions} {query : Query} {cluster : Cluster}
  {output errors : OutputPipe}

/-- The bytes of the last line of a scan, if it has one. -/
def trailerBytes : Option String → Bytes
  | none => []
  | some line => Utf8.encode (line ++ "\n")

theorem conclude_snd (trailer : Option String) (pipe : OutputPipe) :
    (conclude trailer pipe).2 = (pipe.write (trailerBytes trailer)).2 := by
  cases trailer with
  | none =>
      rw [trailerBytes, OutputPipe.write_nil]
      rfl
  | some line =>
      show (conclude (some line) pipe).2 = (pipe.printLine line).2
      simp only [conclude]
      split <;> rfl

theorem run_of_cut (built : options.draft.build = .ok query)
    (cut : (output.write (bannerLine settings)).1 = false) :
    ScanCommand.run settings options cluster output errors =
      some ⟨.ok .success, cluster, (output.write (bannerLine settings)).2, errors,
        [.sinkWriteFailed OutputPipe.brokenPipe, .scanOutputClosed]⟩ := by
  rw [bannerLine] at cut
  simp only [ScanCommand.run, built, OutputPipe.printLine, OutputPipe.writeLine, cut,
    OutputPipe.delivery, Bool.false_eq_true, if_false]
  rfl

theorem run_of_scan (errors : OutputPipe) (built : options.draft.build = .ok query)
    (fits : (output.write (bannerLine settings)).1 = true)
    {scan : ScanRun (ScannedCluster OutputPipe)}
    (scanned : ScannedCluster.scan printEntry settings.retryTimeout query cluster
      (output.write (bannerLine settings)).2 = some scan) :
    ∃ run, ScanCommand.run settings options cluster output errors = some run ∧
      run.output = (scan.state.sink.write (trailerBytes (conclusion scan.result).2)).2 ∧
      run.errors = errors ∧ run.result = .ok (conclusion scan.result).1 ∧
      run.cluster = scan.state.cluster := by
  rw [bannerLine] at fits scanned
  simp only [ScanCommand.run, built, OutputPipe.printLine, OutputPipe.writeLine, fits,
    OutputPipe.delivery, if_true, scanned, Option.map_some, ← conclude_snd]
  exact ⟨_, rfl, rfl, rfl, rfl, rfl⟩

/-- Once the banner is printed, the rest of the text follows and the command ends as the printout
says. -/
theorem run_of_fits (output errors : OutputPipe) (built : options.draft.build = .ok query)
    (fits : (output.write (bannerLine settings)).1 = true) :
    ∃ run, ScanCommand.run settings options cluster output errors = some run ∧
      run.output = (output.write (printout settings query cluster).text).2 ∧
      run.errors = errors ∧ run.result = .ok (printout settings query cluster).exit ∧
      run.cluster = (printout settings query cluster).cluster := by
  have inParts : (output.write (printout settings query cluster).text).2 =
      (((output.write (bannerLine settings)).2.write
        (printout settings query cluster).entries).2.write
          (printout settings query cluster).trailer).2 := by
    rw [Printout.text, OutputPipe.write_append, OutputPipe.write_append]
    rfl
  rw [inParts]
  cases available : cluster.engine.available with
  | false =>
      rcases run_of_scan errors built fits
        (ScannedCluster.scan_of_offline available settings.retryTimeout query) with
        ⟨run, ran, taken, kept, result, left⟩
      refine ⟨run, ran, ?_, kept, ?_, ?_⟩
      · simp only [taken, printout, available, Bool.false_eq_true, if_false, OutputPipe.write_nil]
        rfl
      · simp only [result, printout, available, Bool.false_eq_true, if_false]
        rfl
      · simp only [left, printout, available, Bool.false_eq_true, if_false]
  | true =>
      rcases ScannedCluster.scan_printEntry available settings.retryTimeout query
        (output.write (bannerLine settings)).2 with ⟨scan, scanned, printed⟩
      rcases printed.told with ⟨tally, told, noData⟩
      rcases run_of_scan errors built fits scanned with
        ⟨run, ran, taken, kept, result, left⟩
      have trailer : trailerBytes (conclusion (.ok tally)).2 =
          (printout settings query cluster).trailer := by
        by_cases nothing : ScannedCluster.visibleEntries query cluster = []
        · simp [conclusion, noData, printout, available, nothing, trailerBytes]
        · simp [conclusion, noData, printout, available, nothing, trailerBytes]
      refine ⟨run, ran, ?_, kept, ?_, ?_⟩
      · rw [taken, told, trailer, printed.taken]
        simp [printout, available]
      · simp only [result, told, printout, available, if_true]
        rfl
      · simp only [left, printed.left, printout, available, if_true]

theorem run_of_mistake {mistake : OperatorMistake}
    (mistaken : options.draft.mistake? = some mistake) (unlimited : errors.room = none) :
    ScanCommand.run settings options cluster output errors =
      some ⟨.ok .invalidConfig, cluster, output,
        { errors with written := errors.written ++ Utf8.encode (mistake.message ++ "\n") },
        []⟩ := by
  simp only [ScanCommand.run, QueryDraft.build_of_mistake mistaken, ExitStatus.report,
    OutputPipe.writeLine, OutputPipe.write_of_unlimited unlimited]

/-- A run on what a history left that has printed what the options select. -/
structure PrintsSelection (settings : Settings) (options : ScanOptions) (history : List Operation)
    (output errors : OutputPipe) (run : Run) : Prop where
  silent : run.errors = errors
  online : (Cluster.fresh.performAll history).2.engine.available = true →
    ∃ entries, Entry.Ascending entries ∧
      (∀ entry, entry ∈ entries ↔
        options.draft.rows.Selects entry.row ∧ options.draft.SelectsColumn entry.column ∧
          Change.lastEffect entry.cell
              (Commit.changes (Commit.among (Cluster.fresh.transcript history))) =
            some (some entry.value)) ∧
      run.output.written = output.written ++ bannerLine settings ++
        (if entries = [] then Utf8.encode "\nNo data found\n\n" else Entry.lines entries) ∧
      run.result = .ok .success ∧
      run.cluster = { (Cluster.fresh.performAll history).2 with
        engine := (Cluster.fresh.performAll history).2.engine.tick } ∧
      run.cluster.engine.clock.ticks.toNat =
        (Cluster.fresh.performAll history).2.engine.clock.ticks.toNat + 1
  offline : (Cluster.fresh.performAll history).2.engine.available = false →
    run.output.written = output.written ++ bannerLine settings ++
        Utf8.encode "Scan failed - engine unavailable: memory engine is offline\n" ∧
      run.result = .ok .engineFailure ∧ run.cluster = (Cluster.fresh.performAll history).2

theorem printsSelection_of_query {history : List Operation} {run : Run}
    (room : Cluster.fresh.HasRoomFor (history ++ [.readClock]))
    (contains : ∀ row, query.rows.contains row = true ↔ options.draft.rows.Selects row)
    (selects : ∀ column, query.selects column = true ↔ options.draft.SelectsColumn column)
    (printed : run.output.written = output.written ++
      (printout settings query (Cluster.fresh.performAll history).2).text)
    (silent : run.errors = errors)
    (result : run.result = .ok (printout settings query (Cluster.fresh.performAll history).2).exit)
    (left : run.cluster = (printout settings query (Cluster.fresh.performAll history).2).cluster) :
    PrintsSelection settings options history output errors run := by
  constructor
  case silent => exact silent
  case online =>
    intro available
    have visible : ScannedCluster.visibleEntries query (Cluster.fresh.performAll history).2 =
        Cluster.entriesLeftBy history query :=
      ScannedCluster.filter_visibleAt_opened (Cluster.hasRoomFor_openView room query) available
    refine ⟨Cluster.entriesLeftBy history query, ScannedCluster.entriesLeftBy_ascending, ?_, ?_, ?_,
      ?_, ?_⟩
    · intro entry
      rw [ScannedCluster.mem_entriesLeftBy_iff, contains, selects]
    · rw [printed]
      by_cases nothing : Cluster.entriesLeftBy history query = []
      · simp [Printout.text, printout, available, visible, nothing, Entry.lines]
      · simp [Printout.text, printout, available, visible, nothing]
    · rw [result]
      simp [printout, available]
    · rw [left]
      simp [printout, available, ScannedCluster.opened]
    · have counted := (Cluster.hasRoomFor_append.1 room).2.next available
      have ticked : run.cluster.engine.clock =
          (Cluster.fresh.performAll history).2.engine.clock.next := by
        simp only [left, printout, available, if_true]
        rfl
      rw [ticked, Timestamp.next_toNat counted]
  case offline =>
    intro offline
    refine ⟨?_, ?_, ?_⟩
    · rw [printed]
      simp [Printout.text, printout, offline]
    · rw [result]
      simp [printout, offline]
    · rw [left]
      simp [printout, offline]

/-- Mistaken options are refused before anything is printed or asked of the engine. With others, the
command prints the banner and the entries that they select, or says why there are none. -/
theorem scan_prints_selection (settings : Settings) (options : ScanOptions)
    (history : List Operation) (output errors : OutputPipe) (unlimited : output.room = none)
    (unlimitedErrors : errors.room = none)
    (room : Cluster.fresh.HasRoomFor (history ++ [.readClock])) :
    ((1 < options.draft.rows.modes ∨
        ∃ specifier ∈ options.columns, ColumnPattern.IsMalformed specifier) →
      ∃ mistake, options.draft.mistake? = some mistake ∧
        ScanCommand.run settings options (Cluster.fresh.performAll history).2 output errors =
          some ⟨.ok .invalidConfig, (Cluster.fresh.performAll history).2, output,
            { errors with written := errors.written ++ Utf8.encode (mistake.message ++ "\n") },
            []⟩) ∧
    (¬ (1 < options.draft.rows.modes ∨
        ∃ specifier ∈ options.columns, ColumnPattern.IsMalformed specifier) →
      ∃ run, ScanCommand.run settings options (Cluster.fresh.performAll history).2 output errors =
          some run ∧
        PrintsSelection settings options history output errors run) := by
  constructor
  · intro mistaken
    cases found : options.draft.mistake? with
    | none => exact absurd mistaken (QueryDraft.mistake?_eq_none_iff.1 found)
    | some mistake => exact ⟨mistake, rfl, run_of_mistake found unlimitedErrors⟩
  · intro sound
    rcases QueryDraft.build_of_no_mistake (QueryDraft.mistake?_eq_none_iff.2 sound) with
      ⟨query, built, contains, selects⟩
    have taken := OutputPipe.write_of_unlimited unlimited
    rcases run_of_fits output errors built (congrArg Prod.fst (taken (bannerLine settings))) with
      ⟨run, ran, printed, silent, result, left⟩
    refine ⟨run, ran, printsSelection_of_query room contains selects ?_ silent result left⟩
    rw [printed, taken]

def flowSettings : Settings :=
  ⟨"flow", ⟨1, Nat.one_pos⟩, 500, .standard, 1⟩

/-- A cell that is set and deleted again, beside one that is kept. -/
def keptCell : List Operation :=
  [.commit [.set ⟨[97], ⟨[102], []⟩⟩ [118], .set ⟨[97], ⟨[102], [113]⟩⟩ [119]],
    .commit [.delete ⟨[97], ⟨[102], []⟩⟩]]

theorem scan_prints_selection_keptCell :
    ({} : OutputPipe).room = none ∧ Cluster.fresh.HasRoomFor (keptCell ++ [.readClock]) ∧
      (∃ run, ScanCommand.run flowSettings { exactRow := some "a" }
          (Cluster.fresh.performAll keptCell).2 {} {} = some run ∧
        run.output.written =
          Utf8.encode "Scanning snapshot of data in 'flow' application.\na f:q\tw\n" ∧
        run.result = .ok .success ∧ run.cluster.engine.clock.ticks.toNat = 3) ∧
      ∃ run, ScanCommand.run flowSettings { exactRow := some "a", startRow := some "b" }
          (Cluster.fresh.performAll keptCell).2 {} {} = some run ∧
        run.output = {} ∧ run.result = .ok .invalidConfig := by
  refine ⟨rfl, by decide, ?_, ?_⟩
  · rcases (scan_prints_selection flowSettings { exactRow := some "a" } keptCell {} {} rfl rfl
      (by decide)).2 (by decide) with ⟨run, ran, prints⟩
    rcases prints.online rfl with ⟨entries, ascending, member, written, result, _, clock⟩
    have kept : entries = [⟨[97], ⟨[102], [113]⟩, [119]⟩] := by
      apply ascending.eq_of_mem_iff (List.pairwise_singleton _ _)
      rintro ⟨row, column, value⟩
      have changes : Commit.changes (Commit.among (Cluster.fresh.transcript keptCell)) =
          [.set ⟨[97], ⟨[102], []⟩⟩ [118], .set ⟨[97], ⟨[102], [113]⟩⟩ [119],
            .delete ⟨[97], ⟨[102], []⟩⟩] := rfl
      rw [member, List.mem_singleton, changes]
      constructor
      · rintro ⟨_, _, effect⟩
        simp only [Change.lastEffect_cons, Change.lastEffect_nil, Option.none_or] at effect
        by_cases deleted : (⟨[97], ⟨[102], []⟩⟩ : CellAddress) = ⟨row, column⟩
        · simp [Change.effectOn?, Entry.cell, deleted] at effect
        · by_cases here : (⟨[97], ⟨[102], [113]⟩⟩ : CellAddress) = ⟨row, column⟩
          · cases here
            simp [Change.effectOn?, Entry.cell] at effect
            rw [← effect]
          · simp [Change.effectOn?, Entry.cell, deleted, here] at effect
      · intro same
        cases same
        refine ⟨?_, Or.inl rfl, rfl⟩
        constructor
        case exactRow =>
          intro exact given
          cases given
          rfl
        all_goals
          intro _ given
          cases given
    refine ⟨run, ran, ?_, result, clock⟩
    rw [written, kept, if_neg (List.cons_ne_nil _ _)]
    rfl
  · rcases (scan_prints_selection flowSettings { exactRow := some "a", startRow := some "b" }
      keptCell {} {} rfl rfl (by decide)).1 (Or.inl (by decide)) with ⟨mistake, _, ran⟩
    exact ⟨_, ran, rfl, rfl⟩

/-- A printout with entries is that of a command that succeeds. -/
theorem exit_of_cut {budget : Nat} (fits : (bannerLine settings).length ≤ budget)
    (cut : ¬ ((printout settings query cluster).banner ++
      (printout settings query cluster).entries).length ≤ budget) :
    (printout settings query cluster).exit = .success := by
  cases available : cluster.engine.available with
  | false =>
      apply absurd _ cut
      simpa [printout, available] using fits
  | true => simp [printout, available]

/-- Closing the output only cuts what a scan prints. The scan itself is not affected, unless the
output is closed before its banner is printed: then there is none. -/
theorem closing_cuts_scan (settings : Settings) (options : ScanOptions) (query : Query)
    (cluster : Cluster) (budget : Nat) (flushFails flushFailsThen : Bool) (errors : OutputPipe)
    (built : options.draft.build = .ok query) :
    ∃ unlimited limited,
      ScanCommand.run settings options cluster { flushFails } errors = some unlimited ∧
      ScanCommand.run settings options cluster ⟨some budget, flushFailsThen, []⟩ errors =
        some limited ∧
      unlimited.output.written = (printout settings query cluster).text ∧
      limited.output.written = unlimited.output.written.take budget ∧
      limited.errors = errors ∧
      limited.result =
        (if ((printout settings query cluster).banner ++
            (printout settings query cluster).entries).length ≤ budget then unlimited.result
        else .ok .success) ∧
      (∃ exit, limited.result = .ok exit) ∧
      (budget < (bannerLine settings).length →
        limited.cluster = cluster ∧
          limited.events = [.sinkWriteFailed OutputPipe.brokenPipe, .scanOutputClosed]) ∧
      ((bannerLine settings).length ≤ budget → limited.cluster = unlimited.cluster) := by
  have taken : ∀ bytes, OutputPipe.write bytes { flushFails } =
      (true, { flushFails, written := [] ++ bytes }) :=
    OutputPipe.write_of_unlimited rfl
  have cutAt := OutputPipe.write_of_limited budget flushFailsThen []
  rcases run_of_fits { flushFails } errors built (congrArg Prod.fst (taken _)) with
    ⟨unlimited, ran, printed, _, result, left⟩
  have all : unlimited.output.written = (printout settings query cluster).text := by
    rw [printed, taken, List.nil_append]
  by_cases fits : (bannerLine settings).length ≤ budget
  · have opening := (cutAt (bannerLine settings)).1.trans (decide_eq_true fits)
    rcases run_of_fits _ errors built opening with
      ⟨limited, ranThen, printedThen, silent, resultThen, leftThen⟩
    refine ⟨unlimited, limited, ran, ranThen, all, ?_, silent, ?_, ⟨_, resultThen⟩, ?_, ?_⟩
    · rw [printedThen, all]
      exact (cutAt _).2
    · rw [resultThen, result]
      split
      · rfl
      · next cut =>
        rw [exit_of_cut fits cut]
    · intro cut
      exact absurd fits (Nat.not_le.2 cut)
    · intro _
      rw [left, leftThen]
  · have cut := Nat.lt_of_not_le fits
    have opening := (cutAt (bannerLine settings)).1.trans (decide_eq_false fits)
    refine ⟨unlimited, _, ran, run_of_cut built opening, all, ?_, rfl, ?_, ⟨_, rfl⟩,
      fun _ => ⟨rfl, rfl⟩, fun whole => absurd whole fits⟩
    · have within : budget ≤ (bannerLine settings).length := Nat.le_of_lt cut
      rw [all, Printout.text, List.append_assoc, printout_banner,
        List.take_append_of_le_length within]
      exact (cutAt _).2
    · rw [if_neg]
      intro whole
      rw [List.length_append, printout_banner] at whole
      omega

theorem closing_cuts_scan_withinEntry :
    (ScanOptions.draft {}).build = .ok ⟨.all, .empty⟩ ∧
      ∃ run, ScanCommand.run flowSettings {} (Cluster.fresh.performAll keptCell).2
          ⟨some 53, true, []⟩ {} = some run ∧
        run.output.written =
          Utf8.encode "Scanning snapshot of data in 'flow' application.\na f:" ∧
        run.errors = {} ∧ run.result = .ok .success ∧
        run.cluster.engine.clock.ticks.toNat = 3 := by
  refine ⟨rfl, ?_⟩
  rcases closing_cuts_scan flowSettings {} ⟨.all, .empty⟩ (Cluster.fresh.performAll keptCell).2 53
    false true {} rfl with
    ⟨unlimited, limited, ranUnlimited, ran, all, cut, silent, result, _, _, scanned⟩
  refine ⟨limited, ran, ?_, silent, ?_, ?_⟩
  · rw [cut, all]
    rfl
  · rw [result, if_neg (by decide)]
  · rw [scanned (by decide)]
    obtain rfl := Option.some.inj (ranUnlimited.symm.trans rfl)
    rfl

end ScanCommand

end DataflowOps
