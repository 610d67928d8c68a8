import DataflowOps.CellTable
import DataflowOps.Proofs.ScanContents
import DataflowOps.Proofs.Selection
import DataflowOps.Proofs.TextRoundTrip

/-!
# Tables that are loaded and read back

A table file that was written from records, with blank lines and comments anywhere between them, is
loaded as one commit that sets the cells of the records in their order. A scan then finds the value
of the last record of each cell, and elsewhere what was there before.
-/

namespace DataflowOps

theorem Engine.foldl_applyChange_available (timestamp : Timestamp) (batch : Batch)
    (engine : Engine) :
    (batch.foldl (applyChange timestamp) engine).available = engine.available := by
  induction batch generalizing engine with
  | nil => rfl
  | cons change rest ih =>
      rw [List.foldl_cons, ih]
      cases change <;> rfl

namespace CellTable

/-- Whether a text can stand between two tabs of a line. -/
def IsField (text : String) : Prop :=
  '\t' ∉ text.toList ∧ '\n' ∉ text.toList

instance (text : String) : Decidable (IsField text) :=
  inferInstanceAs (Decidable (_ ∧ _))

/-- A cell with its value as text that a line of a table can hold. -/
structure Record where
  row : String
  family : String
  qualifier : String
  value : String
  row_isField : IsField row
  row_noComment : row.toList.head? ≠ some '#'
  family_isField : IsField family
  family_noColon : Column.separator ∉ family.toList
  qualifier_isField : IsField qualifier
  qualifier_noColon : Column.separator ∉ qualifier.toList
  value_oneLine : '\n' ∉ value.toList
  value_noReturn : value.toList.getLast? ≠ some '\r'

namespace Record

def cell (record : Record) : CellAddress :=
  ⟨Utf8.encode record.row, Utf8.encode record.family, Utf8.encode record.qualifier⟩

/-- The change that a record is loaded as. -/
def change (record : Record) : Change :=
  .set record.cell (Utf8.encode record.value)

end Record

/-- A line of a table. A record without qualifier may be written without a colon, if its line is not
blank then; a line without a record is blank or a comment. -/
inductive Line where
  | full (record : Record)
  | short (record : Record) (noQualifier : record.qualifier = "")
    (notBlank : ∃ character ∈ record.row.toList ++ record.family.toList ++ record.value.toList,
      Blank.isBlank character = false)
  | skipped (text : String) (oneLine : '\n' ∉ text.toList)
    (noCell : (∀ character ∈ text.toList, Blank.isBlank character = true) ∨
      text.toList.head? = some '#')

namespace Line

def text : Line → String
  | full record =>
    record.row ++ "\t" ++ record.family ++ ":" ++ record.qualifier ++ "\t" ++ record.value
  | short record _ _ => record.row ++ "\t" ++ record.family ++ "\t" ++ record.value
  | skipped text _ _ => text

def record? : Line → Option Record
  | full record => some record
  | short record _ _ => some record
  | skipped _ _ _ => none

end Line

inductive LineEnd where
  | feed
  | returnAndFeed

def LineEnd.text : LineEnd → String
  | feed => "\n"
  | returnAndFeed => "\r\n"

/-- A table file: lines with their ends, and perhaps a last line without one. -/
structure File where
  lines : List (Line × LineEnd)
  unended : Option Line

namespace File

def textOf : List (Line × LineEnd) → String
  | [] => ""
  | (line, ending) :: rest => line.text ++ ending.text ++ textOf rest

def text (file : File) : String :=
  textOf file.lines ++ (file.unended.map Line.text).getD ""

def records (file : File) : List Record :=
  (file.lines.map Prod.fst ++ file.unended.toList).filterMap Line.record?

end File

section Parsing

theorem cutAtTab_of_cut {before : List Char} (noTab : '\t' ∉ before) (rest : List Char) :
    cutAtTab (before ++ '\t' :: rest) = some (before, rest) := by
  simp only [cutAtTab, dropWhile_of_cut noTab rest, takeWhile_of_cut noTab rest]

theorem full_toList (record : Record) :
    (Line.full record).text.toList = record.row.toList ++ '\t' ::
      (record.family.toList ++ Column.separator :: record.qualifier.toList ++
        '\t' :: record.value.toList) := by
  simp [Line.text, Column.separator]

theorem short_toList (record : Record) (noQualifier : record.qualifier = "")
    (notBlank : ∃ character ∈ record.row.toList ++ record.family.toList ++ record.value.toList,
      Blank.isBlank character = false) :
    (Line.short record noQualifier notBlank).text.toList =
      record.row.toList ++ '\t' :: (record.family.toList ++ '\t' :: record.value.toList) := by
  simp [Line.text]

theorem parseCell_full (record : Record) :
    parseCell (Line.full record).text.toList = .ok record.change := by
  have oneField : '\t' ∉ record.family.toList ++ Column.separator :: record.qualifier.toList := by
    simp [Column.separator, record.family_isField.1, record.qualifier_isField.1]
  have written := String.toList_ofList
    (l := record.family.toList ++ Column.separator :: record.qualifier.toList)
  have parsed := ColumnPattern.parse_of_cut written record.family_noColon
  rw [if_neg record.qualifier_noColon] at parsed
  simp only [parseCell, full_toList, cutAtTab_of_cut record.row_isField.1,
    cutAtTab_of_cut oneField, parsed]
  rfl

theorem parseCell_short (record : Record) (noQualifier : record.qualifier = "")
    (notBlank : ∃ character ∈ record.row.toList ++ record.family.toList ++ record.value.toList,
      Blank.isBlank character = false) :
    parseCell (Line.short record noQualifier notBlank).text.toList = .ok record.change := by
  have parsed := ColumnPattern.parse_of_not_mem record.family_noColon
  simp only [parseCell, short_toList, cutAtTab_of_cut record.row_isField.1,
    cutAtTab_of_cut record.family_isField.1, String.ofList_toList, parsed]
  simp only [Record.change, Record.cell, noQualifier]
  rfl

theorem isSkipped_iff {characters : List Char} :
    isSkipped characters = true ↔
      (∀ character ∈ characters, Blank.isBlank character = true) ∨
        characters.head? = some '#' := by
  simp [isSkipped]

theorem parseLine_encodeChars (characters : List Char) :
    parseLine (Utf8.encodeChars characters) =
      if isSkipped characters then .ok none else (parseCell characters).map some := by
  simp only [parseLine, Utf8.decode?_encodeChars]

theorem head?_ne_comment (record : Record) (rest : List Char) :
    (record.row.toList ++ '\t' :: rest).head? ≠ some '#' := by
  have noComment := record.row_noComment
  cases given : record.row.toList with
  | nil => simp
  | cons first row => simpa [given] using noComment

/-- A line is read as its record, or as none. -/
theorem parseLine_text (line : Line) :
    parseLine (Utf8.encode line.text) = .ok (line.record?.map Record.change) := by
  rw [Utf8.encode, parseLine_encodeChars]
  cases line with
  | full record =>
      have notSkipped : ¬ isSkipped (Line.full record).text.toList = true := by
        rw [isSkipped_iff, not_or, full_toList]
        refine ⟨fun blank => ?_, head?_ne_comment record _⟩
        have colon := blank Column.separator (by simp)
        exact absurd colon (by decide)
      rw [if_neg notSkipped, parseCell_full]
      rfl
  | short record noQualifier notBlank =>
      have notSkipped :
          ¬ isSkipped (Line.short record noQualifier notBlank).text.toList = true := by
        rw [isSkipped_iff, not_or, short_toList]
        refine ⟨fun blank => ?_, head?_ne_comment record _⟩
        rcases notBlank with ⟨character, member, notBlank⟩
        rw [blank character (by simp at member ⊢; grind)] at notBlank
        cases notBlank
      rw [if_neg notSkipped, parseCell_short]
      rfl
  | skipped text oneLine noCell =>
      exact if_pos (isSkipped_iff.2 noCell)

theorem oneLine_text (line : Line) : '\n' ∉ line.text.toList := by
  cases line with
  | full record =>
      simp [full_toList, Column.separator, record.row_isField.2, record.family_isField.2,
        record.qualifier_isField.2, record.value_oneLine]
  | short record noQualifier notBlank =>
      simp [short_toList, record.row_isField.2, record.family_isField.2, record.value_oneLine]
  | skipped text oneLine noCell => exact oneLine

theorem getLast?_ne_return (record : Record) (before : List Char) :
    (before ++ '\t' :: record.value.toList).getLast? ≠ some '\r' := by
  have noReturn := record.value_noReturn
  rw [List.getLast?_append]
  cases last : record.value.toList.getLast? with
  | none =>
      rw [List.getLast?_eq_none_iff.1 last]
      simp
  | some character => simpa [List.getLast?_cons, last] using noReturn

theorem isSkipped_of_append {characters : List Char}
    (skipped : isSkipped (characters ++ ['\r']) = true) : isSkipped characters = true := by
  rw [isSkipped_iff] at skipped ⊢
  rcases skipped with blank | comment
  · exact Or.inl fun character member => blank character (List.mem_append_left _ member)
  · cases characters with
    | nil => exact Or.inl (by simp)
    | cons first rest => exact Or.inr comment

/-- A line that ends with a carriage return holds no record, and neither does it without this end.
-/
theorem parseLine_dropReturn (line : Line) :
    parseLine (Lines.dropReturn (Utf8.encode line.text)) =
      .ok (line.record?.map Record.change) := by
  -- A value does not end with a carriage return, so that only a skipped line can lose its last one.
  by_cases ends : line.text.toList.getLast? = some '\r'
  · cases line with
    | full record =>
        have split : (Line.full record).text.toList = record.row.toList ++ '\t' ::
            (record.family.toList ++ Column.separator :: record.qualifier.toList) ++
              '\t' :: record.value.toList := by
          simp [full_toList]
        exact absurd (split ▸ ends) (getLast?_ne_return record _)
    | short record noQualifier notBlank =>
        have split : (Line.short record noQualifier notBlank).text.toList =
            record.row.toList ++ '\t' :: record.family.toList ++ '\t' :: record.value.toList := by
          simp [short_toList]
        exact absurd (split ▸ ends) (getLast?_ne_return record _)
    | skipped text oneLine noCell =>
        rcases List.getLast?_eq_some_iff.1 ends with ⟨before, split⟩
        have dropped : Lines.dropReturn (Utf8.encode (Line.skipped text oneLine noCell).text) =
            Utf8.encodeChars before := by
          rw [Utf8.encode, split, Utf8.encodeChars_append]
          exact Lines.dropReturn_append _
        rw [dropped, parseLine_encodeChars]
        exact if_pos (isSkipped_of_append (split ▸ isSkipped_iff.2 noCell))
  · rw [Lines.dropReturn_encode ends, parseLine_text]

theorem parseLines_cons {line : Line} {bytes : Bytes} {number : Nat} {rest : List Bytes}
    {batch : Batch} (read : parseLine bytes = .ok (line.record?.map Record.change))
    (readRest : parseLines (number + 1) rest = .ok batch) :
    parseLines number (bytes :: rest) =
      .ok ((line.record?.toList.map Record.change) ++ batch) := by
  cases record : line.record? with
  | none =>
      rw [record] at read
      simp only [parseLines, read, Option.map_none, readRest]
      rfl
  | some record =>
      rw [record] at read
      simp only [parseLines, read, Option.map_some, readRest]
      rfl

/-- A line with its end is read first. -/
theorem parseLines_ended (line : Line) (ending : LineEnd) {number : Nat} {rest : Bytes}
    {batch : Batch} (readRest : parseLines (number + 1) (Lines.split rest) = .ok batch) :
    parseLines number (Lines.split (Utf8.encode (line.text ++ ending.text) ++ rest)) =
      .ok ((line.record?.toList.map Record.change) ++ batch) := by
  cases ending with
  | feed =>
      rw [LineEnd.text, Lines.split_encode_feed (oneLine_text line)]
      exact parseLines_cons (parseLine_dropReturn line) readRest
  | returnAndFeed =>
      rw [LineEnd.text, Lines.split_encode_returnFeed (oneLine_text line)]
      exact parseLines_cons (parseLine_text line) readRest

/-- A last line without an end is read as well, unless it is empty. -/
theorem parseLines_unended (line : Line) (number : Nat) :
    parseLines number (Lines.split (Utf8.encode line.text)) =
      .ok (line.record?.toList.map Record.change) := by
  rw [Lines.split_of_not_mem (Lines.lineFeed_notMem_encode (oneLine_text line))]
  have read := parseLine_text line
  split
  · next empty =>
    rw [empty] at read
    cases record : line.record? with
    | none => rfl
    | some record =>
        rw [record] at read
        cases read
  · rw [parseLines_cons read rfl, List.append_nil]

/-- A file is read as the changes of its records, in their order. -/
theorem parse_text (file : File) :
    parse (Utf8.encode file.text) = .ok (file.records.map Record.change) := by
  rcases file with ⟨lines, unended⟩
  have read (number : Nat) : parseLines number (Lines.split (Utf8.encode
      (File.text ⟨lines, unended⟩))) = .ok ((File.records ⟨lines, unended⟩).map Record.change) := by
    induction lines generalizing number with
    | nil =>
        cases unended with
        | none => rfl
        | some line =>
            have text : File.text ⟨[], some line⟩ = line.text := String.empty_append
            rw [text, parseLines_unended]
            cases record : line.record? with
            | none => simp [File.records, record]
            | some record => simp [File.records, record]
    | cons first rest ih =>
        rcases first with ⟨line, ending⟩
        have text : File.text ⟨(line, ending) :: rest, unended⟩ =
            line.text ++ ending.text ++ File.text ⟨rest, unended⟩ := by
          simp only [File.text, File.textOf, String.append_assoc]
        rw [text, Utf8.encode_append, parseLines_ended line ending (ih (number + 1))]
        cases record : line.record? with
        | none => simp [File.records, record]
        | some record => simp [File.records, record]
  exact read 1

end Parsing

/-- The value that the last record of a cell gives it. -/
def lastValue (cell : CellAddress) (records : List Record) : Option Bytes :=
  (records.reverse.find? fun record => record.cell = cell).map fun record =>
    Utf8.encode record.value

theorem lastEffect_map_change (cell : CellAddress) (records : List Record) :
    Change.lastEffect cell (records.map Record.change) = (lastValue cell records).map some := by
  rw [Change.lastEffect, ← List.map_reverse, lastValue]
  induction records.reverse with
  | nil => rfl
  | cons record rest ih =>
      by_cases same : record.cell = cell
      · simp [Record.change, Change.effectOn?, same]
      · simpa [Record.change, Change.effectOn?, same] using ih

/-- What loading a file amounts to for the cluster. -/
def File.operations (file : File) : List Operation :=
  if file.records = [] then [] else [.commit (file.records.map Record.change)]

section Loading

variable {file : File} {cluster : Cluster} {history : List Operation}

theorem perform_commit (available : cluster.engine.available = true) (batch : Batch) :
    cluster.perform (.commit batch) =
      (.committed cluster.engine.clock.next batch.length,
        { cluster with engine := (cluster.engine.commit batch).2 }) := by
  simp [Cluster.perform, Engine.commit, available]

theorem load_text (file : File) (available : cluster.engine.available = true) :
    ∃ events, load (Utf8.encode file.text) cluster =
      ⟨.ok file.records.length, (cluster.performAll file.operations).2, events⟩ := by
  rw [load, parse_text, File.operations]
  cases file.records with
  | nil => exact ⟨_, rfl⟩
  | cons record rest =>
      simp only [List.map_cons, perform_commit available, reduceCtorEq, if_false,
        Cluster.performAll_cons, Cluster.performAll_nil, List.length_cons, List.length_map]
      exact ⟨_, rfl⟩

/-- A load takes one tick if there is a record, and else none. -/
theorem ticks_operations (file : File) (available : cluster.engine.available = true) :
    Answer.ticks (cluster.performAll file.operations).1 = if file.records = [] then 0 else 1 := by
  rw [File.operations]
  split
  · rfl
  · simp [perform_commit available, Answer.tookTick]

theorem available_operations (file : File) (available : cluster.engine.available = true) :
    (cluster.performAll file.operations).2.engine.available = true := by
  rw [File.operations]
  split
  · exact available
  · rw [Cluster.performAll_cons, perform_commit available, Cluster.performAll_nil]
    simp only [Engine.commit, available, if_true, Engine.foldl_applyChange_available]
    exact available

/-- After a load, the last change of a cell is that of its last record, if it has one. -/
theorem lastEffect_operations
    (available : (Cluster.fresh.performAll history).2.engine.available = true)
    (cell : CellAddress) :
    Change.lastEffect cell
        (Commit.changes (Commit.among (Cluster.fresh.transcript (history ++ file.operations)))) =
      ((lastValue cell file.records).map some).or
        (Change.lastEffect cell
          (Commit.changes (Commit.among (Cluster.fresh.transcript history)))) := by
  rw [Cluster.transcript_append, Commit.among_append, Commit.changes, List.flatMap_append,
    Change.lastEffect_append, ← lastEffect_map_change]
  congr 1
  rw [File.operations]
  split
  · next none =>
    rw [none]
    rfl
  · simp [perform_commit available, Commit.among]

/-- Two ticks are enough for a load and for the scan after it. -/
theorem hasRoomFor_operations (room : cluster.HasRoomFor [.readClock, .readClock])
    (available : cluster.engine.available = true) (query : Query) :
    cluster.HasRoomFor (file.operations ++ [.openView query]) := by
  have twoTicks : cluster.engine.clock.ticks.toNat + 2 < UInt64.size := by
    simpa [Cluster.HasRoomFor, Cluster.perform, Engine.readClock, Engine.tick, available,
      Answer.tookTick] using room
  rw [Cluster.HasRoomFor, Cluster.performAll_append, Answer.ticks_append,
    ticks_operations file available, Cluster.performAll_cons, Cluster.performAll_nil,
    Answer.ticks_cons, Answer.ticks_nil]
  split <;> split <;> omega

end Loading

end CellTable

namespace ScannedCluster

/-- An undisturbed scan collects everything. -/
theorem scan_undisturbed {history : List Operation} {query : Query} (timeout : Nat)
    (room : Cluster.fresh.HasRoomFor (history ++ [.openView query]))
    (available : (Cluster.fresh.performAll history).2.engine.available = true) :
    ∃ run, scan HookedCollection.accept timeout query (Cluster.fresh.performAll history).2
        ⟨{}, [], []⟩ = some run ∧
      run.state.sink.collection.entries = Cluster.entriesLeftBy history query ∧
      ∃ tally, run.result = .ok tally := by
  have noHooks (accepted count : Nat) : ScanHook.following [] accepted count = [] := by
    induction count generalizing accepted with
    | zero => rfl
    | succ count ih => exact ih (accepted + 1)
  have online (accepted : Nat) : onlineAfter history query [] accepted = true := by
    rw [onlineAfter_eq available, noHooks]
    exact available
  have roomThen : Cluster.fresh.HasRoomFor (history ++ .openView query ::
      ScanHook.following [] 0 (Cluster.entriesLeftBy history query).length) := by
    rw [noHooks]
    exact room
  rcases scan_ends timeout roomThen with ⟨run, ran, complete, _⟩
  rcases complete fun accepted _ => online accepted with ⟨collected, result⟩
  exact ⟨run, ran, collected, _, result⟩

end ScannedCluster

namespace CellTable

/-- Loading a table overlays what was visible before with the values of its records: a scan then
finds the last value of each of their cells, and elsewhere what a scan would have found before. -/
theorem load_overlays_records (file : File) (history : List Operation) (timeout : Nat)
    (room : Cluster.fresh.HasRoomFor (history ++ [.readClock, .readClock]))
    (available : (Cluster.fresh.performAll history).2.engine.available = true) :
    ∃ loaded before after,
      load (Utf8.encode file.text) (Cluster.fresh.performAll history).2 = loaded ∧
      loaded.result = .ok file.records.length ∧
      (file.records = [] → loaded.cluster = (Cluster.fresh.performAll history).2) ∧
      (file.records ≠ [] → loaded.cluster.engine.clock.ticks.toNat =
        (Cluster.fresh.performAll history).2.engine.clock.ticks.toNat + 1) ∧
      ScannedCluster.scan HookedCollection.accept timeout ⟨.all, .empty⟩
        (Cluster.fresh.performAll history).2 ⟨{}, [], []⟩ = some before ∧
      ScannedCluster.scan HookedCollection.accept timeout ⟨.all, .empty⟩ loaded.cluster
        ⟨{}, [], []⟩ = some after ∧
      (∃ tally, after.result = .ok tally) ∧
      Entry.Ascending after.state.sink.collection.entries ∧
      ∀ entry, entry ∈ after.state.sink.collection.entries ↔
        lastValue entry.cell file.records = some entry.value ∨
          lastValue entry.cell file.records = none ∧
            entry ∈ before.state.sink.collection.entries := by
  rcases Cluster.hasRoomFor_append.1 room with ⟨roomHistory, roomLater⟩
  have roomLoad : Cluster.fresh.HasRoomFor ((history ++ file.operations) ++
      [.openView ⟨.all, .empty⟩]) := by
    rw [List.append_assoc]
    exact Cluster.hasRoomFor_append.2
      ⟨roomHistory, hasRoomFor_operations roomLater available ⟨.all, .empty⟩⟩
  have roomBefore : Cluster.fresh.HasRoomFor (history ++ [.openView ⟨.all, .empty⟩]) :=
    Cluster.hasRoomFor_openView (Cluster.hasRoomFor_append.2 ⟨roomHistory, roomLater.cons.1⟩) _
  have left : (Cluster.fresh.performAll (history ++ file.operations)).2 =
      ((Cluster.fresh.performAll history).2.performAll file.operations).2 := by
    rw [Cluster.performAll_append]
  have availableThen := available_operations file available
  rw [← left] at availableThen
  rcases load_text file available with ⟨events, loaded⟩
  rw [← left] at loaded
  rcases ScannedCluster.scan_undisturbed timeout roomBefore available with
    ⟨before, scanned, collected, _⟩
  rcases ScannedCluster.scan_undisturbed timeout roomLoad availableThen with
    ⟨after, scannedThen, collectedThen, ended⟩
  refine ⟨_, before, after, loaded, rfl, ?_, ?_, scanned, scannedThen, ended, ?_, ?_⟩
  · intro none
    rw [left, File.operations, if_pos none]
    rfl
  · intro some
    have roomCommit := (Cluster.hasRoomFor_append.1 (Cluster.hasRoomFor_append.1 roomLoad).1).2
    rw [left, Cluster.clock_performAll roomCommit, ticks_operations file available, if_neg some]
  · rw [collectedThen]
    exact ScannedCluster.entriesLeftBy_ascending
  · intro entry
    have all : RowInterval.all.contains entry.row = true := rfl
    have every : Query.selects ⟨.all, .empty⟩ entry.column = true := rfl
    rw [collectedThen, collected, ScannedCluster.mem_entriesLeftBy_iff,
      ScannedCluster.mem_entriesLeftBy_iff, lastEffect_operations available]
    cases lastValue entry.cell file.records with
    | none => simp
    | some value => simp [all, every]

/-- A value for one and the same cell. -/
def repeatedRecord (value : String) (value_oneLine : '\n' ∉ value.toList)
    (value_noReturn : value.toList.getLast? ≠ some '\r') : Record where
  row := "r"
  family := "f"
  qualifier := "q"
  value := value
  row_isField := by decide
  row_noComment := by decide
  family_isField := by decide
  family_noColon := by decide
  qualifier_isField := by decide
  qualifier_noColon := by decide
  value_oneLine := value_oneLine
  value_noReturn := value_noReturn

/-- Two records of one cell, with a comment before them and a blank line between them. -/
def repeatedCell : File where
  lines := [
    (.skipped "# cells" (by decide) (Or.inr rfl), .returnAndFeed),
    (.full (repeatedRecord "v:\tv" (by decide) (by decide)), .feed),
    (.skipped " " (by decide) (Or.inl (List.all_eq_true.1 rfl)), .feed)]
  unended := some (.full (repeatedRecord "w" (by decide) (by decide)))

theorem load_overlays_repeatedCell :
    repeatedCell.text = "# cells\r\nr\tf:q\tv:\tv\n \nr\tf:q\tw" ∧
      Cluster.fresh.HasRoomFor (ScannedCluster.overwrittenRow ++ [.readClock, .readClock]) ∧
      (Cluster.fresh.performAll ScannedCluster.overwrittenRow).2.engine.available = true ∧
      ∃ loaded after,
        load (Utf8.encode repeatedCell.text)
          (Cluster.fresh.performAll ScannedCluster.overwrittenRow).2 = loaded ∧
        loaded.result = .ok 2 ∧
        ScannedCluster.scan HookedCollection.accept 0 ⟨.all, .empty⟩ loaded.cluster
          ⟨{}, [], []⟩ = some after ∧
        ⟨Utf8.encode "r", ⟨Utf8.encode "f", Utf8.encode "q"⟩, Utf8.encode "w"⟩ ∈
          after.state.sink.collection.entries := by
  refine ⟨rfl, by decide, rfl, ?_⟩
  rcases load_overlays_records repeatedCell ScannedCluster.overwrittenRow 0 (by decide) rfl with
    ⟨loaded, before, after, ran, result, _, _, _, scanned, _, _, member⟩
  exact ⟨loaded, after, ran, result, scanned, (member _).2 (Or.inl rfl)⟩

end CellTable

end DataflowOps
