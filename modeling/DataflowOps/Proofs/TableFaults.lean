import DataflowOps.Proofs.Decoding
import DataflowOps.Proofs.LoadedTable

/-!
# Tables that are refused

A line of a table file is malformed if it is no text, or if it is a data line that is too short or
names no column. A file is refused for its first malformed line, and one without malformed lines
only if it has a data line and the engine is offline. A file that is refused leaves nothing behind.
-/

namespace DataflowOps

namespace CellTable

/-- Whether a line of these characters stands for a cell: it is neither blank nor a comment. -/
def HoldsCell (characters : List Char) : Prop :=
  (∃ character ∈ characters, Blank.isBlank character = false) ∧ characters.head? ≠ some '#'

/-- Whether a line is text that stands for a cell. -/
def IsDataLine (line : Bytes) : Prop :=
  ∃ characters, line = Utf8.encodeChars characters ∧ HoldsCell characters

/-- What can be wrong with the characters of a data line. -/
inductive CellFault : List Char → LineFault → Prop where
  | missingFields {characters : List Char} (fewTabs : characters.count '\t' < 2) :
      CellFault characters .missingFields
  | invalidColumn {row column value : List Char} (row_noTab : '\t' ∉ row)
      (column_noTab : '\t' ∉ column) (colons : 2 ≤ column.count ':') :
      CellFault (row ++ '\t' :: (column ++ '\t' :: value))
        (.invalidColumn (.tooManyFields (String.ofList column)))

/-- What can be wrong with a line. -/
inductive Faulty : Bytes → LineFault → Prop where
  | notText {line : Bytes} (noText : ∀ characters, line ≠ Utf8.encodeChars characters) :
      Faulty line .notText
  | cell {characters : List Char} {fault : LineFault} (data : HoldsCell characters)
      (faulty : CellFault characters fault) : Faulty (Utf8.encodeChars characters) fault

def Malformed (line : Bytes) : Prop :=
  ∃ fault, Faulty line fault

section Characters

variable {characters : List Char} {fault : LineFault}

theorem isSkipped_eq_false_iff : isSkipped characters = false ↔ HoldsCell characters := by
  rw [← Bool.not_eq_true, isSkipped_iff, HoldsCell, not_or]
  simp

theorem cutAtTab_of_not_mem (noTab : '\t' ∉ characters) : cutAtTab characters = none := by
  simp only [cutAtTab, dropWhile_of_not_mem noTab]

theorem parseCell_of_cut {row column : List Char} (row_noTab : '\t' ∉ row)
    (column_noTab : '\t' ∉ column) (value : List Char) :
    parseCell (row ++ '\t' :: (column ++ '\t' :: value)) =
      ((ColumnPattern.parse (String.ofList column)).mapError LineFault.invalidColumn).map
        fun pattern =>
          .set ⟨Utf8.encodeChars row, columnOf pattern⟩ (Utf8.encodeChars value) := by
  simp only [parseCell, cutAtTab_of_cut row_noTab, cutAtTab_of_cut column_noTab]
  cases ColumnPattern.parse (String.ofList column) <;> rfl

/-- Characters with fewer than two tabs lack a field. -/
theorem parseCell_of_few (fewTabs : characters.count '\t' < 2) :
    parseCell characters = .error .missingFields := by
  by_cases tab : '\t' ∈ characters
  · rcases List.eq_append_cons_of_mem tab with ⟨row, rest, rfl, row_noTab⟩
    have noSecond : '\t' ∉ rest := by
      rw [List.count_append, List.count_cons_self] at fewTabs
      exact List.count_eq_zero.1 (by omega)
    simp only [parseCell, cutAtTab_of_cut row_noTab, cutAtTab_of_not_mem noSecond]
  · simp only [parseCell, cutAtTab_of_not_mem tab]

/-- Characters with two tabs are a row, a column and a value. -/
theorem eq_fields_of_tabs (tabs : ¬ characters.count '\t' < 2) :
    ∃ row column value, characters = row ++ '\t' :: (column ++ '\t' :: value) ∧
      '\t' ∉ row ∧ '\t' ∉ column := by
  have first : '\t' ∈ characters := List.count_pos_iff.1 (by omega)
  rcases List.eq_append_cons_of_mem first with ⟨row, rest, rfl, row_noTab⟩
  rw [List.count_append, List.count_cons_self, List.count_eq_zero.2 row_noTab] at tabs
  have second : '\t' ∈ rest := List.count_pos_iff.1 (by omega)
  rcases List.eq_append_cons_of_mem second with ⟨column, value, rfl, column_noTab⟩
  exact ⟨row, column, value, rfl, row_noTab, column_noTab⟩

/-- The characters of a data line are refused exactly for what is wrong with them. -/
theorem parseCell_eq_error_iff : parseCell characters = .error fault ↔
    CellFault characters fault := by
  constructor
  · intro refused
    by_cases few : characters.count '\t' < 2
    · rw [parseCell_of_few few] at refused
      cases refused
      exact .missingFields few
    · rcases eq_fields_of_tabs few with ⟨row, column, value, rfl, row_noTab, column_noTab⟩
      rw [parseCell_of_cut row_noTab column_noTab] at refused
      by_cases colons : ColumnPattern.IsMalformed (String.ofList column)
      · rw [ColumnPattern.parse_of_isMalformed colons] at refused
        cases refused
        rw [ColumnPattern.IsMalformed, String.toList_ofList] at colons
        exact .invalidColumn row_noTab column_noTab colons
      · rcases ColumnPattern.parse_of_not_isMalformed colons with ⟨pattern, parsed, _⟩
        rw [parsed] at refused
        cases refused
  · intro faulty
    cases faulty with
    | missingFields few => exact parseCell_of_few few
    | @invalidColumn row column value row_noTab column_noTab colons =>
        have malformed : ColumnPattern.IsMalformed (String.ofList column) := by
          rw [ColumnPattern.IsMalformed, String.toList_ofList]
          exact colons
        rw [parseCell_of_cut row_noTab column_noTab, ColumnPattern.parse_of_isMalformed malformed]
        rfl

end Characters

section Lines

variable {line : Bytes} {characters : List Char} {fault : LineFault}

theorem parseLine_of_noText (noText : ∀ characters, line ≠ Utf8.encodeChars characters) :
    parseLine line = .error .notText := by
  cases text : Utf8.decode? line with
  | none => simp only [parseLine, text]
  | some characters => exact absurd (Utf8.decode?_eq_some_iff.1 text) (noText characters)

theorem parseLine_of_data (data : HoldsCell characters) :
    parseLine (Utf8.encodeChars characters) = (parseCell characters).map some := by
  rw [parseLine_encodeChars, isSkipped_eq_false_iff.2 data]
  rfl

theorem parseLine_of_skipped (skipped : ¬ HoldsCell characters) :
    parseLine (Utf8.encodeChars characters) = .ok none := by
  rw [← isSkipped_eq_false_iff, Bool.not_eq_false] at skipped
  rw [parseLine_encodeChars, if_pos skipped]

/-- A line is refused exactly for what is wrong with it. -/
theorem parseLine_eq_error_iff : parseLine line = .error fault ↔ Faulty line fault := by
  constructor
  · intro refused
    by_cases text : ∃ characters, line = Utf8.encodeChars characters
    · rcases text with ⟨characters, rfl⟩
      by_cases data : HoldsCell characters
      · rw [parseLine_of_data data] at refused
        cases cell : parseCell characters with
        | error other =>
            rw [cell] at refused
            cases refused
            exact .cell data (parseCell_eq_error_iff.1 cell)
        | ok change =>
            rw [cell] at refused
            cases refused
      · rw [parseLine_of_skipped data] at refused
        cases refused
    · rw [not_exists] at text
      rw [parseLine_of_noText text] at refused
      cases refused
      exact .notText text
  · intro faulty
    cases faulty with
    | notText noText => exact parseLine_of_noText noText
    | cell data faulty =>
        rw [parseLine_of_data data, parseCell_eq_error_iff.2 faulty]
        rfl

theorem isDataLine_iff_any : IsDataLine line ↔
    (Utf8.decode? line).any (fun characters => !isSkipped characters) = true := by
  simp only [IsDataLine, ← Utf8.decode?_eq_some_iff, ← isSkipped_eq_false_iff, Option.any_eq_true,
    Bool.not_eq_true']

instance : DecidablePred IsDataLine :=
  fun _ => decidable_of_iff _ isDataLine_iff_any.symm

theorem isDataLine_encodeChars_iff :
    IsDataLine (Utf8.encodeChars characters) ↔ HoldsCell characters := by
  simp only [isDataLine_iff_any, Utf8.decode?_encodeChars, Option.any_some, Bool.not_eq_true',
    isSkipped_eq_false_iff]

/-- A line that is not refused is read as a cell exactly if it is a data line. -/
theorem isDataLine_iff {cell? : Option Change} (read : parseLine line = .ok cell?) :
    IsDataLine line ↔ cell?.isSome = true := by
  by_cases text : ∃ characters, line = Utf8.encodeChars characters
  · rcases text with ⟨characters, rfl⟩
    rw [isDataLine_encodeChars_iff]
    by_cases data : HoldsCell characters
    · rw [parseLine_of_data data] at read
      cases cell : parseCell characters with
      | error other =>
          rw [cell] at read
          cases read
      | ok change =>
          rw [cell] at read
          cases read
          simp [data]
    · rw [parseLine_of_skipped data] at read
      cases read
      simp [data]
  · rw [parseLine_of_noText (not_exists.1 text)] at read
    cases read

end Lines

section Files

variable {line : Bytes} {lines earlier : List Bytes} {fault : LineFault}

theorem parseLine_of_not_malformed (sound : ¬ Malformed line) :
    ∃ cell?, parseLine line = .ok cell? := by
  cases read : parseLine line with
  | error fault => exact absurd ⟨fault, parseLine_eq_error_iff.1 read⟩ sound
  | ok cell? => exact ⟨cell?, rfl⟩

/-- The first malformed line ends the reading, whatever stands before and after it. -/
theorem parseLines_of_first (sound : ∀ other ∈ earlier, ¬ Malformed other)
    (faulty : Faulty line fault) (later : List Bytes) (number : Nat) :
    parseLines number (earlier ++ line :: later) =
      .error (.malformedLine (number + earlier.length) fault) := by
  induction earlier generalizing number with
  | nil =>
      simp only [List.nil_append, parseLines, parseLine_eq_error_iff.2 faulty, List.length_nil,
        Nat.add_zero]
  | cons first rest ih =>
      rw [List.forall_mem_cons] at sound
      have readRest := ih sound.2 (number + 1)
      rw [Nat.add_right_comm, Nat.add_assoc] at readRest
      rcases parseLine_of_not_malformed sound.1 with ⟨_ | cell, read⟩
      · simp only [List.cons_append, parseLines, read, readRest, List.length_cons]
      · simp only [List.cons_append, parseLines, read, readRest, List.length_cons, Except.map]

/-- Without malformed lines, one cell is read from every data line. -/
theorem parseLines_of_sound (sound : ∀ line ∈ lines, ¬ Malformed line) (number : Nat) :
    ∃ batch, parseLines number lines = .ok batch ∧
      batch.length = lines.countP (IsDataLine ·) := by
  induction lines generalizing number with
  | nil => exact ⟨[], rfl, rfl⟩
  | cons first rest ih =>
      rw [List.forall_mem_cons] at sound
      rcases ih sound.2 (number + 1) with ⟨batch, readRest, length⟩
      rcases parseLine_of_not_malformed sound.1 with ⟨_ | cell, read⟩
      · have noData : ¬ IsDataLine first := by
          rw [isDataLine_iff read]
          exact Bool.false_ne_true
        refine ⟨batch, ?_, ?_⟩
        · simp only [parseLines, read, readRest]
        · rw [length, List.countP_cons_of_neg (by simpa using noData)]
      · have data : IsDataLine first := (isDataLine_iff read).2 rfl
        refine ⟨cell :: batch, ?_, ?_⟩
        · simp only [parseLines, read, readRest, Except.map]
        · rw [List.length_cons, length, List.countP_cons_of_pos (by simpa using data)]

theorem exists_first_malformed (malformed : ∃ line ∈ lines, Malformed line) :
    ∃ earlier line later fault, lines = earlier ++ line :: later ∧
      (∀ other ∈ earlier, ¬ Malformed other) ∧ Faulty line fault := by
  induction lines with
  | nil => simp at malformed
  | cons first rest ih =>
      by_cases here : Malformed first
      · rcases here with ⟨fault, faulty⟩
        exact ⟨[], first, rest, fault, rfl, by simp, faulty⟩
      · have inRest : ∃ line ∈ rest, Malformed line := by
          rw [List.exists_mem_cons_iff] at malformed
          exact malformed.resolve_left here
        rcases ih inRest with ⟨earlier, line, later, fault, rfl, sound, faulty⟩
        exact ⟨first :: earlier, line, later, fault, rfl,
          List.forall_mem_cons.2 ⟨here, sound⟩, faulty⟩

end Files

section Loading

variable {file line : Bytes} {earlier later : List Bytes} {fault : LineFault}

theorem load_of_first (cut : Lines.split file = earlier ++ line :: later)
    (sound : ∀ other ∈ earlier, ¬ Malformed other) (faulty : Faulty line fault)
    (cluster : Cluster) :
    load file cluster = ⟨.error (.malformedLine (earlier.length + 1) fault), cluster, []⟩ := by
  rw [load, parse, cut, parseLines_of_first sound faulty, Nat.add_comm]

theorem load_of_noData (sound : ∀ line ∈ Lines.split file, ¬ Malformed line)
    (noData : (Lines.split file).countP (IsDataLine ·) = 0) (cluster : Cluster) :
    load file cluster = ⟨.ok 0, cluster, []⟩ := by
  rcases parseLines_of_sound sound 1 with ⟨batch, parsed, length⟩
  rw [noData, List.length_eq_zero_iff] at length
  rw [load, parse, parsed, length]

variable {cluster : Cluster}

theorem result_of_first (earlier : List Bytes) (line : Bytes) (later : List Bytes)
    (fault : LineFault) (cut : Lines.split file = earlier ++ line :: later)
    (sound : ∀ other ∈ earlier, ¬ Malformed other) (faulty : Faulty line fault) :
    (load file cluster).result = .error (.malformedLine (earlier.length + 1) fault) := by
  rw [load_of_first cut sound faulty]

theorem load_of_offline (sound : ∀ line ∈ Lines.split file, ¬ Malformed line)
    (data : (Lines.split file).countP (IsDataLine ·) ≠ 0)
    (offline : cluster.engine.available = false) :
    load file cluster = ⟨.error (.engine Engine.offline), cluster, []⟩ := by
  rcases parseLines_of_sound sound 1 with ⟨batch, parsed, length⟩
  rw [← length] at data
  cases batch with
  | nil => exact absurd rfl data
  | cons change rest => simp [load, parse, parsed, Cluster.perform, Engine.commit, offline]

theorem load_of_available (sound : ∀ line ∈ Lines.split file, ¬ Malformed line)
    (data : (Lines.split file).countP (IsDataLine ·) ≠ 0)
    (available : cluster.engine.available = true) :
    (load file cluster).result = .ok ((Lines.split file).countP (IsDataLine ·)) ∧
      (load file cluster).cluster.engine.clock = cluster.engine.clock.next := by
  rcases parseLines_of_sound sound 1 with ⟨batch, parsed, length⟩
  rw [← length] at data ⊢
  cases batch with
  | nil => exact absurd rfl data
  | cons change rest =>
      simp only [load, parse, parsed, perform_commit available, Engine.commit, available, if_true,
        Engine.foldl_applyChange_clock, true_and]
      rfl

/-- How a file with these lines is loaded. -/
structure LoadsLines (lines : List Bytes) (cluster : Cluster) (loaded : Loaded) : Prop where
  fails_iff : (∃ error, loaded.result = .error error) ↔
    (∃ line ∈ lines, Malformed line) ∨
      (∀ line ∈ lines, ¬ Malformed line) ∧ (∃ line ∈ lines, IsDataLine line) ∧
        cluster.engine.available = false
  firstFault : ∀ earlier line later fault, lines = earlier ++ line :: later →
    (∀ other ∈ earlier, ¬ Malformed other) → Faulty line fault →
      loaded.result = .error (.malformedLine (earlier.length + 1) fault)
  otherFailure : (∀ line ∈ lines, ¬ Malformed line) →
    ∀ error, loaded.result = .error error → error = .engine Engine.offline
  count : ∀ count, loaded.result = .ok count → count = lines.countP (IsDataLine ·)
  tick : ∀ count, loaded.result = .ok count → 0 < count →
    loaded.cluster.engine.clock = cluster.engine.clock.next
  noCells : loaded.result = .ok 0 → loaded.cluster = cluster
  noTrace : ∀ error, loaded.result = .error error → loaded.cluster = cluster ∧ loaded.events = []

theorem loadsLines_of_malformed (malformed : ∃ line ∈ Lines.split file, Malformed line) :
    LoadsLines (Lines.split file) cluster (load file cluster) := by
  rcases exists_first_malformed malformed with ⟨earlier, line, later, fault, cut, sound, faulty⟩
  have refused := load_of_first cut sound faulty cluster
  constructor
  case fails_iff =>
    rw [refused]
    exact ⟨fun _ => Or.inl malformed, fun _ => ⟨_, rfl⟩⟩
  case firstFault => exact result_of_first
  case otherFailure =>
    intro allSound
    rcases malformed with ⟨line, member, wrong⟩
    exact absurd wrong (allSound line member)
  case noTrace =>
    rw [refused]
    exact fun _ _ => ⟨rfl, rfl⟩
  all_goals simp [refused]

theorem loadsLines_of_sound (sound : ∀ line ∈ Lines.split file, ¬ Malformed line) :
    LoadsLines (Lines.split file) cluster (load file cluster) := by
  have noFault : ¬ ∃ line ∈ Lines.split file, Malformed line :=
    fun ⟨line, member, malformed⟩ => sound line member malformed
  have data_iff : (∃ line ∈ Lines.split file, IsDataLine line) ↔
      (Lines.split file).countP (IsDataLine ·) ≠ 0 := by
    simp [List.countP_eq_zero]
  by_cases data : (Lines.split file).countP (IsDataLine ·) = 0
  · have loaded := load_of_noData sound data cluster
    constructor
    case firstFault => exact result_of_first
    all_goals simp [loaded, noFault, data_iff, data]
  · cases available : cluster.engine.available with
    | false =>
      have refused := load_of_offline sound data available
      constructor
      case firstFault => exact result_of_first
      case fails_iff => simpa [refused, noFault, data_iff, data, available] using sound
      all_goals simp [refused]
    | true =>
      rcases load_of_available sound data available with ⟨result, clock⟩
      constructor
      case firstFault => exact result_of_first
      case fails_iff => simp [result, noFault, available]
      case noCells => simp [result, data]
      all_goals simp [result, clock]

/-- A table file is loaded as a whole or not at all. It is refused exactly if a line is malformed,
for the first such line, or if it has cells that an engine offline does not take. -/
theorem load_all_or_nothing (file : Bytes) (cluster : Cluster) :
    (∃ lines, Lines.Cut file lines) ∧
      ∀ lines, Lines.Cut file lines → LoadsLines lines cluster (load file cluster) := by
  refine ⟨⟨_, Lines.cut_split file⟩, ?_⟩
  intro lines cut
  obtain rfl := Lines.cut_iff.1 cut
  by_cases malformed : ∃ line ∈ Lines.split file, Malformed line
  · exact loadsLines_of_malformed malformed
  · apply loadsLines_of_sound
    intro line member wrong
    exact malformed ⟨line, member, wrong⟩

example : load (Utf8.encode "#\ta:b:c\t\n \t\r\nr\tf\tv\nr\tf:q:s\tv\nr") Cluster.fresh =
    ⟨.error (.malformedLine 4 (.invalidColumn (.tooManyFields "f:q:s"))), .fresh, []⟩ := by
  rfl

end Loading

end CellTable

end DataflowOps
