import Mathlib.Data.List.TakeWhile
import DataflowOps.Command.Scan
import DataflowOps.Proofs.Intervals

/-!
# What the options of a scan select

The options of a scan are judged and turned into an interval of rows and a set of column patterns.
This file says which options are refused and which rows and columns the others select, in terms of
the texts that the operator gave.
-/

namespace DataflowOps

section Cut

variable {Symbol : Type} [DecidableEq Symbol] {separator : Symbol} {symbols before : List Symbol}

theorem takeWhile_of_not_mem (absent : separator ∉ symbols) :
    symbols.takeWhile (· ≠ separator) = symbols := by
  apply List.takeWhile_eq_self_iff.2
  intro symbol member
  exact decide_eq_true (ne_of_mem_of_not_mem member absent)

theorem dropWhile_of_not_mem (absent : separator ∉ symbols) :
    symbols.dropWhile (· ≠ separator) = [] := by
  apply List.dropWhile_eq_nil_iff.2
  intro symbol member
  exact decide_eq_true (ne_of_mem_of_not_mem member absent)

theorem takeWhile_of_cut (absent : separator ∉ before) (rest : List Symbol) :
    (before ++ separator :: rest).takeWhile (· ≠ separator) = before := by
  rw [List.takeWhile_append_of_pos]
  · simp
  · intro symbol member
    exact decide_eq_true (ne_of_mem_of_not_mem member absent)

theorem dropWhile_of_cut (absent : separator ∉ before) (rest : List Symbol) :
    (before ++ separator :: rest).dropWhile (· ≠ separator) = separator :: rest := by
  rw [List.dropWhile_append_of_pos]
  · simp
  · intro symbol member
    exact decide_eq_true (ne_of_mem_of_not_mem member absent)

end Cut

namespace ColumnPattern

/-- Whether a specifier has more than one colon. -/
def IsMalformed (specifier : String) : Prop :=
  1 < specifier.toList.count Column.separator

instance (specifier : String) : Decidable (IsMalformed specifier) :=
  inferInstanceAs (Decidable (1 < _))

/-- Whether a specifier asks for a column: it is the text of the column's family, or those of its
family and its qualifier with a colon between them. -/
def Asks (specifier : String) (column : Column) : Prop :=
  (Column.separator ∉ specifier.toList ∧ column.family = Utf8.encode specifier) ∨
    ∃ family qualifier, specifier.toList = family ++ Column.separator :: qualifier ∧
      Column.separator ∉ family ∧ Column.separator ∉ qualifier ∧
        column = ⟨Utf8.encodeChars family, Utf8.encodeChars qualifier⟩

theorem parse_of_not_mem {specifier : String}
    (noColon : Column.separator ∉ specifier.toList) :
    parse specifier = .ok (.family (Utf8.encode specifier)) := by
  simp only [parse, dropWhile_of_not_mem noColon, takeWhile_of_not_mem noColon]
  rfl

theorem parse_of_cut {specifier : String} {family qualifier : List Char}
    (cut : specifier.toList = family ++ Column.separator :: qualifier)
    (noColon : Column.separator ∉ family) :
    parse specifier =
      if Column.separator ∈ qualifier then .error (.tooManyFields specifier)
      else .ok (.column (Utf8.encodeChars family) (Utf8.encodeChars qualifier)) := by
  simp only [parse, cut, dropWhile_of_cut noColon, takeWhile_of_cut noColon]

theorem isMalformed_of_cut {specifier : String} {family qualifier : List Char}
    (cut : specifier.toList = family ++ Column.separator :: qualifier)
    (noColon : Column.separator ∉ family) :
    IsMalformed specifier ↔ Column.separator ∈ qualifier := by
  rw [IsMalformed, cut, List.count_append, List.count_cons_self, List.count_eq_zero.2 noColon,
    ← List.count_pos_iff]
  omega

theorem parse_of_isMalformed {specifier : String} (malformed : IsMalformed specifier) :
    parse specifier = .error (.tooManyFields specifier) := by
  have present : Column.separator ∈ specifier.toList :=
    List.count_pos_iff.1 (Nat.zero_lt_of_lt malformed)
  rcases List.eq_append_cons_of_mem present with ⟨family, qualifier, cut, noColon⟩
  rw [parse_of_cut cut noColon, if_pos ((isMalformed_of_cut cut noColon).1 malformed)]

/-- A specifier with at most one colon is a pattern, which accepts what it asks for. -/
theorem parse_of_not_isMalformed {specifier : String} (wellFormed : ¬ IsMalformed specifier) :
    ∃ pattern, parse specifier = .ok pattern ∧
      ∀ column, pattern.accepts column = true ↔ Asks specifier column := by
  by_cases present : Column.separator ∈ specifier.toList
  · rcases List.eq_append_cons_of_mem present with ⟨family, qualifier, cut, noColon⟩
    have noSecond : Column.separator ∉ qualifier :=
      fun second => wellFormed ((isMalformed_of_cut cut noColon).2 second)
    have parsed := parse_of_cut cut noColon
    rw [if_neg noSecond] at parsed
    refine ⟨_, parsed, ?_⟩
    intro column
    simp only [accepts, Bool.and_eq_true, beq_iff_eq]
    constructor
    · rintro ⟨sameFamily, sameQualifier⟩
      refine Or.inr ⟨family, qualifier, cut, noColon, noSecond, ?_⟩
      rw [← sameFamily, ← sameQualifier]
    · rintro (⟨absent, _⟩ | ⟨otherFamily, otherQualifier, otherCut, otherNoColon, _, rfl⟩)
      · exact absurd present absent
      · have sameFamily := takeWhile_of_cut otherNoColon otherQualifier
        have sameQualifier := dropWhile_of_cut otherNoColon otherQualifier
        rw [← otherCut, cut, takeWhile_of_cut noColon] at sameFamily
        rw [← otherCut, cut, dropWhile_of_cut noColon] at sameQualifier
        cases sameFamily
        cases sameQualifier
        exact ⟨rfl, rfl⟩
  · refine ⟨_, parse_of_not_mem present, ?_⟩
    intro column
    simp only [accepts, beq_iff_eq]
    constructor
    · intro sameFamily
      exact Or.inl ⟨present, sameFamily⟩
    · rintro (⟨_, sameFamily⟩ | ⟨family, qualifier, cut, _⟩)
      · exact sameFamily
      · exact absurd (cut ▸ List.mem_append_right family List.mem_cons_self) present

namespace Collection

theorem mem_keys_insert {collection : Collection} {pattern other : ColumnPattern} :
    other ∈ (collection.insert pattern ()).keys ↔ other = pattern ∨ other ∈ collection.keys := by
  simp only [OrderedMap.keys, List.mem_map, Prod.exists, exists_and_right, exists_eq_right,
    OrderedMap.mem_entries_insert]
  by_cases same : other = pattern
  · simp [same]
  · simp [same]

theorem mem_keys_ofList {patterns : List ColumnPattern} {pattern : ColumnPattern} :
    pattern ∈ (ofList patterns).keys ↔ pattern ∈ patterns := by
  have inserted (collection : Collection) :
      pattern ∈ (patterns.foldl (fun collection pattern => collection.insert pattern ())
          collection).keys ↔ pattern ∈ patterns ∨ pattern ∈ collection.keys := by
    induction patterns generalizing collection with
    | nil => simp
    | cons first rest ih =>
        rw [List.foldl_cons, ih, mem_keys_insert, List.mem_cons]
        grind
  rw [ofList, inserted]
  simp [OrderedMap.empty, OrderedMap.keys]

end Collection

end ColumnPattern

namespace RowOptions

/-- How many of the modes exact row, stem and range the options belong to. -/
def modes (options : RowOptions) : Nat :=
  [options.exactRow.isSome, options.rowStem.isSome,
    options.startRow.isSome || options.endRow.isSome].count true

/-- Whether a row is selected by every option given. -/
structure Selects (options : RowOptions) (row : Bytes) : Prop where
  exactRow : ∀ exact, options.exactRow = some exact → row = exact
  rowStem : ∀ stem, options.rowStem = some stem → stem <+: row
  startRow : ∀ first, options.startRow = some first → ¬ row < first
  endRow : ∀ last, options.endRow = some last → ¬ last < row

variable {options : RowOptions}

theorem scope_of_conflict (conflict : 1 < options.modes) :
    options.scope = .error (.conflictingSelectors options.given) := by
  rcases options with ⟨_ | exact, _ | stem, _ | first, _ | last⟩ <;>
    first
      | rfl
      | simp [modes] at conflict

theorem selects_iff {row : Bytes} : options.Selects row ↔
    (∀ exact, options.exactRow = some exact → row = exact) ∧
      (∀ stem, options.rowStem = some stem → stem <+: row) ∧
      (∀ first, options.startRow = some first → ¬ row < first) ∧
      ∀ last, options.endRow = some last → ¬ last < row := by
  constructor
  · rintro ⟨exact, stem, first, last⟩
    exact ⟨exact, stem, first, last⟩
  · rintro ⟨exact, stem, first, last⟩
    exact ⟨exact, stem, first, last⟩

/-- Options of one mode at most are a scope, which holds the rows that they select. -/
theorem scope_of_no_conflict (noConflict : ¬ 1 < options.modes) :
    ∃ scope, options.scope = .ok scope ∧
      ∀ row, scope.interval.contains row = true ↔ options.Selects row := by
  rcases options with ⟨exact, stem, first, last⟩
  cases exact with
  | some exact =>
      have alone : stem = none ∧ first = none ∧ last = none := by
        cases stem <;> cases first <;> cases last <;> simp [modes] at noConflict ⊢
      rcases alone with ⟨rfl, rfl, rfl⟩
      refine ⟨.single exact, rfl, ?_⟩
      intro row
      simp [selects_iff, RowScope.interval, RowInterval.contains_single_iff]
  | none =>
      cases stem with
      | some stem =>
          have alone : first = none ∧ last = none := by
            cases first <;> cases last <;> simp [modes] at noConflict ⊢
          rcases alone with ⟨rfl, rfl⟩
          refine ⟨.beginningWith stem, rfl, ?_⟩
          intro row
          simp [selects_iff, RowScope.interval, RowInterval.contains_beginningWith_iff]
      | none =>
          refine ⟨.between first last, rfl, ?_⟩
          intro row
          simp [selects_iff, RowScope.interval, RowInterval.contains_between_iff]

end RowOptions

namespace Query

variable {specifiers : List String}

/-- Of several malformed specifiers the first one is reported. -/
theorem mapM_parse_of_malformed {specifier : String}
    (first : specifiers.find? (fun specifier => ColumnPattern.IsMalformed specifier) =
      some specifier) :
    specifiers.mapM ColumnPattern.parse = .error (.tooManyFields specifier) := by
  induction specifiers with
  | nil => cases first
  | cons head rest ih =>
      rw [List.mapM_cons]
      by_cases malformed : ColumnPattern.IsMalformed head
      · simp only [List.find?_cons, malformed, decide_true, Option.some.injEq] at first
        rw [← first, ColumnPattern.parse_of_isMalformed malformed]
        rfl
      · simp only [List.find?_cons, malformed, decide_false] at first
        rcases ColumnPattern.parse_of_not_isMalformed malformed with ⟨pattern, parsed, _⟩
        rw [parsed, ih first]
        rfl

theorem mapM_parse_of_wellFormed
    (wellFormed : ∀ specifier ∈ specifiers, ¬ ColumnPattern.IsMalformed specifier) :
    ∃ patterns, specifiers.mapM ColumnPattern.parse = .ok patterns ∧
      (patterns = [] ↔ specifiers = []) ∧
      ∀ column, (∃ pattern ∈ patterns, ColumnPattern.accepts pattern column = true) ↔
        ∃ specifier ∈ specifiers, ColumnPattern.Asks specifier column := by
  induction specifiers with
  | nil => exact ⟨[], rfl, by simp, by simp⟩
  | cons head rest ih =>
      rcases ColumnPattern.parse_of_not_isMalformed (wellFormed head List.mem_cons_self) with
        ⟨pattern, parsed, accepts⟩
      rcases ih fun specifier member => wellFormed specifier (List.mem_cons_of_mem _ member) with
        ⟨patterns, parsedRest, _, acceptRest⟩
      refine ⟨pattern :: patterns, ?_, by simp, ?_⟩
      · rw [List.mapM_cons, parsed, parsedRest]
        rfl
      · intro column
        simp only [List.mem_cons, exists_eq_or_imp, accepts, acceptRest]

theorem build_of_mapM_parse {patterns : List ColumnPattern} (scope : RowScope)
    (parsed : specifiers.mapM ColumnPattern.parse = .ok patterns) :
    build scope specifiers = .ok ⟨scope.interval, .ofList patterns⟩ := by
  rw [build, parsed]
  rfl

theorem selects_ofList_iff {rows : RowInterval} {patterns : List ColumnPattern} {column : Column} :
    Query.selects ⟨rows, .ofList patterns⟩ column = true ↔
      patterns = [] ∨ ∃ pattern ∈ patterns, pattern.accepts column = true := by
  have noKeys : (ColumnPattern.Collection.ofList patterns).keys = [] ↔ patterns = [] := by
    simp only [List.eq_nil_iff_forall_not_mem, ColumnPattern.Collection.mem_keys_ofList]
  simp [Query.selects, noKeys, ColumnPattern.Collection.mem_keys_ofList]

end Query

namespace QueryDraft

/-- Whether the specifiers of a draft ask for a column; without specifiers every column is asked
for. -/
def SelectsColumn (draft : QueryDraft) (column : Column) : Prop :=
  draft.columns = [] ∨ ∃ specifier ∈ draft.columns, ColumnPattern.Asks specifier column

/-- The mistake in a draft, if there is one: options of several modes, or else the first malformed
specifier. -/
def mistake? (draft : QueryDraft) : Option OperatorMistake :=
  if 1 < draft.rows.modes then some (.conflictingSelectors draft.rows.given)
  else (draft.columns.find? fun specifier => ColumnPattern.IsMalformed specifier).map
    .tooManyFields

variable {draft : QueryDraft}

theorem mistake?_eq_none_iff :
    draft.mistake? = none ↔
      ¬ (1 < draft.rows.modes ∨
        ∃ specifier ∈ draft.columns, ColumnPattern.IsMalformed specifier) := by
  by_cases conflict : 1 < draft.rows.modes
  · simp [mistake?, conflict]
  · simp [mistake?, conflict]

theorem build_of_mistake {mistake : OperatorMistake} (mistaken : draft.mistake? = some mistake) :
    draft.build = .error mistake := by
  by_cases conflict : 1 < draft.rows.modes
  · rw [mistake?, if_pos conflict] at mistaken
    cases mistaken
    rw [build, scope, RowOptions.scope_of_conflict conflict]
    rfl
  · rw [mistake?, if_neg conflict] at mistaken
    rcases Option.map_eq_some_iff.1 mistaken with ⟨specifier, first, rfl⟩
    rcases RowOptions.scope_of_no_conflict conflict with ⟨scope, chosen, _⟩
    rw [build, QueryDraft.scope, chosen]
    simp only [Query.build, Query.mapM_parse_of_malformed first]
    rfl

/-- A draft without a mistake is a query for the rows and columns that it selects. -/
theorem build_of_no_mistake (sound : draft.mistake? = none) :
    ∃ query, draft.build = .ok query ∧
      (∀ row, query.rows.contains row = true ↔ draft.rows.Selects row) ∧
      ∀ column, query.selects column = true ↔ draft.SelectsColumn column := by
  rw [mistake?_eq_none_iff, not_or] at sound
  rcases sound with ⟨noConflict, noneMalformed⟩
  have wellFormed : ∀ specifier ∈ draft.columns, ¬ ColumnPattern.IsMalformed specifier := by
    intro specifier member malformed
    exact noneMalformed ⟨specifier, member, malformed⟩
  rcases RowOptions.scope_of_no_conflict noConflict with ⟨scope, chosen, contains⟩
  rcases Query.mapM_parse_of_wellFormed wellFormed with
    ⟨patterns, parsed, noPatterns, accepts⟩
  refine ⟨⟨scope.interval, .ofList patterns⟩, ?_, contains, ?_⟩
  · rw [build, QueryDraft.scope, chosen]
    exact Query.build_of_mapM_parse scope parsed
  · intro column
    rw [Query.selects_ofList_iff, SelectsColumn, noPatterns, accepts]

theorem build_eq_error_iff {mistake : OperatorMistake} :
    draft.build = .error mistake ↔ draft.mistake? = some mistake := by
  constructor
  · intro refused
    cases found : draft.mistake? with
    | some other =>
        rw [build_of_mistake found] at refused
        cases refused
        rfl
    | none =>
        rcases build_of_no_mistake found with ⟨query, built, _⟩
        rw [built] at refused
        cases refused
  · exact build_of_mistake

end QueryDraft

end DataflowOps
