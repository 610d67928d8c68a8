import Mathlib.Data.List.Induction
import DataflowOps.Proofs.Selection

/-!
# Options given one after the other

The options of a scan are given in any order and any number of times. What comes of them depends on
the last value given to each row selector and on the column specifiers in the order in which they
were given. This file states the refusals and the selected rows in terms of the sequence of options,
without the draft that collects them.
-/

namespace DataflowOps

/-- The ways to select rows, of which a scan uses one. -/
inductive RowMode where
  | exactRow
  | rowStem
  | range
  deriving DecidableEq

namespace RowSelector

def mode : RowSelector → RowMode
  | exactRow => .exactRow
  | rowStem => .rowStem
  | startRow | endRow => .range

/-- The selectors in the order in which messages list them. -/
def listed : List RowSelector :=
  [exactRow, rowStem, startRow, endRow]

end RowSelector

namespace QueryOption

/-- The value that an option gives to a row selector, if it gives it one. -/
def valueFor? : RowSelector → QueryOption → Option Bytes
  | .exactRow, exactRow row => some row
  | .rowStem, rowStem stem => some stem
  | .startRow, startRow row => some row
  | .endRow, endRow row => some row
  | _, _ => none

/-- The specifiers that an option adds. -/
def specifiers : QueryOption → List String
  | column specifier => [specifier]
  | columns specifiers => specifiers
  | _ => []

/-- The values that options give to a row selector, in their order. -/
def valuesFor (selector : RowSelector) (options : List QueryOption) : List Bytes :=
  options.filterMap (valueFor? selector)

def lastValue (selector : RowSelector) (options : List QueryOption) : Option Bytes :=
  (valuesFor selector options).getLast?

/-- The specifiers that options add, in their order. -/
def allSpecifiers (options : List QueryOption) : List String :=
  options.flatMap specifiers

/-- Whether options give values to selectors of two modes. -/
def MixesModes (options : List QueryOption) : Prop :=
  ∃ first second : RowSelector, first.mode ≠ second.mode ∧
    valuesFor first options ≠ [] ∧ valuesFor second options ≠ []

/-- The mistake that options are refused for: selectors of two modes, of which all that were given
are named, or else the first specifier with more than one colon. -/
inductive RefusedFor (options : List QueryOption) : OperatorMistake → Prop where
  | modes (mixed : MixesModes options) :
      RefusedFor options (.conflictingSelectors
        (RowSelector.listed.filter fun selector => valuesFor selector options ≠ []))
  | specifier {earlier later : List String} {specifier : String} (oneMode : ¬ MixesModes options)
      (order : allSpecifiers options = earlier ++ specifier :: later)
      (wellFormed : ∀ other ∈ earlier, ¬ ColumnPattern.IsMalformed other)
      (malformed : ColumnPattern.IsMalformed specifier) :
      RefusedFor options (.tooManyFields specifier)

/-- Whether a row is selected by the last values that options of one mode give. -/
inductive SelectsRow (options : List QueryOption) (row : Bytes) : Prop where
  | exactRow (last : lastValue .exactRow options = some row)
  | rowStem {stem : Bytes} (last : lastValue .rowStem options = some stem) (begins : stem <+: row)
  | range (noExactRow : lastValue .exactRow options = none)
      (noStem : lastValue .rowStem options = none)
      (notBelow : ∀ first, lastValue .startRow options = some first → ¬ row < first)
      (notAbove : ∀ last, lastValue .endRow options = some last → ¬ last < row)

end QueryOption

namespace RowOptions

def value? : RowOptions → RowSelector → Option Bytes
  | options, .exactRow => options.exactRow
  | options, .rowStem => options.rowStem
  | options, .startRow => options.startRow
  | options, .endRow => options.endRow

theorem gives_eq_isSome (options : RowOptions) (selector : RowSelector) :
    options.gives selector = (options.value? selector).isSome := by
  cases selector <;> rfl

theorem ext_value? {left right : RowOptions}
    (same : ∀ selector, left.value? selector = right.value? selector) : left = right := by
  rcases left with ⟨exact, stem, first, last⟩
  rcases right with ⟨otherExact, otherStem, otherFirst, otherLast⟩
  have sameExact : exact = otherExact := same .exactRow
  have sameStem : stem = otherStem := same .rowStem
  have sameFirst : first = otherFirst := same .startRow
  have sameLast : last = otherLast := same .endRow
  rw [sameExact, sameStem, sameFirst, sameLast]

theorem one_lt_count_iff {first second third : Bool} :
    1 < [first, second, third].count true ↔
      first = true ∧ second = true ∨ first = true ∧ third = true ∨
        second = true ∧ third = true := by
  cases first <;> cases second <;> cases third <;> decide

/-- Options belong to several modes exactly if they give selectors of two modes. -/
theorem one_lt_modes_iff {options : RowOptions} :
    1 < options.modes ↔ ∃ first second : RowSelector, first.mode ≠ second.mode ∧
      options.gives first = true ∧ options.gives second = true := by
  have ofRange (range : (options.startRow.isSome || options.endRow.isSome) = true) :
      ∃ selector : RowSelector, selector.mode = .range ∧ options.gives selector = true := by
    rcases Bool.or_eq_true_iff.1 range with first | last
    · exact ⟨.startRow, rfl, first⟩
    · exact ⟨.endRow, rfl, last⟩
  rw [modes, one_lt_count_iff]
  constructor
  · rintro (⟨exact, stem⟩ | ⟨exact, range⟩ | ⟨stem, range⟩)
    · exact ⟨.exactRow, .rowStem, by decide, exact, stem⟩
    · rcases ofRange range with ⟨selector, mode, given⟩
      exact ⟨.exactRow, selector, by rw [mode]; decide, exact, given⟩
    · rcases ofRange range with ⟨selector, mode, given⟩
      exact ⟨.rowStem, selector, by rw [mode]; decide, stem, given⟩
  · rintro ⟨first, second, differ, givesFirst, givesSecond⟩
    cases first <;> cases second <;> simp_all [gives, RowSelector.mode]

end RowOptions

namespace QueryOption

variable {draft : QueryDraft} {options : List QueryOption}

theorem value?_add (draft : QueryDraft) (option : QueryOption) (selector : RowSelector) :
    (draft.add option).rows.value? selector =
      (option.valueFor? selector).or (draft.rows.value? selector) := by
  cases option <;> cases selector <;> rfl

theorem columns_add (draft : QueryDraft) (option : QueryOption) :
    (draft.add option).columns = draft.columns ++ option.specifiers := by
  cases option <;> simp [QueryDraft.add, specifiers]

theorem ofOptions_concat (earlier : List QueryOption) (option : QueryOption) :
    QueryDraft.ofOptions (earlier ++ [option]) = (QueryDraft.ofOptions earlier).add option := by
  rw [QueryDraft.ofOptions, List.foldl_append]
  rfl

theorem lastValue_concat (earlier : List QueryOption) (option : QueryOption)
    (selector : RowSelector) :
    lastValue selector (earlier ++ [option]) =
      (option.valueFor? selector).or (lastValue selector earlier) := by
  simp only [lastValue, valuesFor, List.filterMap_append, List.getLast?_append]
  cases given : option.valueFor? selector with
  | none => simp [given]
  | some value => simp [given]

/-- The draft of options holds the last value given to each selector. -/
theorem value?_ofOptions (options : List QueryOption) (selector : RowSelector) :
    (QueryDraft.ofOptions options).rows.value? selector = lastValue selector options := by
  induction options using List.reverseRecOn with
  | nil => cases selector <;> rfl
  | append_singleton earlier option ih =>
      rw [ofOptions_concat, value?_add, ih, lastValue_concat]

theorem columns_ofOptions (options : List QueryOption) :
    (QueryDraft.ofOptions options).columns = allSpecifiers options := by
  induction options using List.reverseRecOn with
  | nil => rfl
  | append_singleton earlier option ih =>
      rw [ofOptions_concat, columns_add, ih, allSpecifiers, allSpecifiers, List.flatMap_append,
        List.flatMap_singleton]

theorem gives_ofOptions_iff {selector : RowSelector} :
    (QueryDraft.ofOptions options).rows.gives selector = true ↔
      valuesFor selector options ≠ [] := by
  rw [RowOptions.gives_eq_isSome, value?_ofOptions, lastValue, List.getLast?_isSome]

theorem given_ofOptions (options : List QueryOption) :
    (QueryDraft.ofOptions options).rows.given =
      RowSelector.listed.filter fun selector => valuesFor selector options ≠ [] := by
  apply List.filter_congr
  intro selector _
  rw [Bool.eq_iff_iff, gives_ofOptions_iff, decide_eq_true_iff]

theorem mixesModes_iff : MixesModes options ↔ 1 < (QueryDraft.ofOptions options).rows.modes := by
  simp only [RowOptions.one_lt_modes_iff, gives_ofOptions_iff, MixesModes]

/-- Options are refused for the mistake in their draft. -/
theorem refusedFor_iff {mistake : OperatorMistake} :
    RefusedFor options mistake ↔ (QueryDraft.ofOptions options).mistake? = some mistake := by
  by_cases mixed : MixesModes options
  · rw [QueryDraft.mistake?, if_pos (mixesModes_iff.1 mixed), given_ofOptions, Option.some.injEq]
    constructor
    · intro refused
      cases refused with
      | modes => rfl
      | specifier oneMode => exact absurd mixed oneMode
    · rintro rfl
      exact .modes mixed
  · rw [QueryDraft.mistake?, if_neg (mt mixesModes_iff.2 mixed), columns_ofOptions,
      Option.map_eq_some_iff]
    simp only [List.find?_eq_some_iff_append, decide_eq_true_eq, Bool.not_eq_true',
      decide_eq_false_iff_not]
    constructor
    · intro refused
      cases refused with
      | modes mixedThen => exact absurd mixedThen mixed
      | specifier _ order wellFormed malformed =>
          exact ⟨_, ⟨malformed, _, _, order, wellFormed⟩, rfl⟩
    · rintro ⟨specifier, ⟨malformed, earlier, later, order, wellFormed⟩, rfl⟩
      exact .specifier mixed order wellFormed malformed

/-- Beside a selector of one mode, those of the other modes are given no value. -/
theorem lastValue_eq_none (oneMode : ¬ MixesModes options) {selector : RowSelector}
    {value : Bytes} (given : lastValue selector options = some value) (other : RowSelector)
    (differ : selector.mode ≠ other.mode) : lastValue other options = none := by
  apply List.getLast?_eq_none_iff.2
  apply Classical.byContradiction
  intro givenOther
  apply oneMode
  refine ⟨selector, other, differ, ?_, givenOther⟩
  rw [← List.getLast?_isSome]
  exact Option.isSome_of_mem given

/-- Options of one mode select the rows that the draft of them selects. -/
theorem selectsRow_iff {row : Bytes} (oneMode : ¬ MixesModes options) :
    SelectsRow options row ↔ (QueryDraft.ofOptions options).rows.Selects row := by
  have exact : (QueryDraft.ofOptions options).rows.exactRow = lastValue .exactRow options :=
    value?_ofOptions options .exactRow
  have stem : (QueryDraft.ofOptions options).rows.rowStem = lastValue .rowStem options :=
    value?_ofOptions options .rowStem
  have first : (QueryDraft.ofOptions options).rows.startRow = lastValue .startRow options :=
    value?_ofOptions options .startRow
  have last : (QueryDraft.ofOptions options).rows.endRow = lastValue .endRow options :=
    value?_ofOptions options .endRow
  rw [RowOptions.selects_iff, exact, stem, first, last]
  constructor
  · intro selected
    cases selected with
    | exactRow given =>
        rw [given, lastValue_eq_none oneMode given .rowStem (by decide),
          lastValue_eq_none oneMode given .startRow (by decide),
          lastValue_eq_none oneMode given .endRow (by decide)]
        simp
    | rowStem given begins =>
        rw [given, lastValue_eq_none oneMode given .exactRow (by decide),
          lastValue_eq_none oneMode given .startRow (by decide),
          lastValue_eq_none oneMode given .endRow (by decide)]
        simpa using begins
    | range noExactRow noStem notBelow notAbove =>
        rw [noExactRow, noStem]
        exact ⟨by simp, by simp, notBelow, notAbove⟩
  · rintro ⟨isExact, begins, notBelow, notAbove⟩
    cases givenExact : lastValue .exactRow options with
    | some value => exact .exactRow (by rw [givenExact, isExact value givenExact])
    | none =>
        cases givenStem : lastValue .rowStem options with
        | some value => exact .rowStem givenStem (begins value givenStem)
        | none => exact .range givenExact givenStem notBelow notAbove

/-- What comes of options given one after the other: they are refused for selectors of two modes,
then for the first malformed specifier. Otherwise they are a query for the rows that the last values
select. An earlier value of a selector and the order of the selectors make no difference. -/
theorem build_follows_sequence (options : List QueryOption) :
    (∀ mistake, (QueryDraft.ofOptions options).build = .error mistake ↔
        RefusedFor options mistake) ∧
      ((∀ mistake, ¬ RefusedFor options mistake) →
        ∃ query, (QueryDraft.ofOptions options).build = .ok query ∧
          ∀ row, query.rows.contains row = true ↔ SelectsRow options row) ∧
      ∀ others, (∀ selector, lastValue selector others = lastValue selector options) →
        allSpecifiers others = allSpecifiers options →
          (QueryDraft.ofOptions others).build = (QueryDraft.ofOptions options).build := by
  refine ⟨?_, ?_, ?_⟩
  · intro mistake
    rw [refusedFor_iff, QueryDraft.build_eq_error_iff]
  · intro accepted
    have sound : (QueryDraft.ofOptions options).mistake? = none := by
      apply Option.eq_none_iff_forall_ne_some.2
      intro mistake found
      exact accepted mistake (refusedFor_iff.2 found)
    have oneMode : ¬ MixesModes options := fun mixed => accepted _ (.modes mixed)
    rcases QueryDraft.build_of_no_mistake sound with ⟨query, built, contains, _⟩
    refine ⟨query, built, ?_⟩
    intro row
    rw [contains, selectsRow_iff oneMode]
  · intro others sameValues sameSpecifiers
    have sameRows : (QueryDraft.ofOptions others).rows = (QueryDraft.ofOptions options).rows := by
      apply RowOptions.ext_value?
      intro selector
      rw [value?_ofOptions, value?_ofOptions, sameValues]
    have sameColumns :
        (QueryDraft.ofOptions others).columns = (QueryDraft.ofOptions options).columns := by
      rw [columns_ofOptions, columns_ofOptions, sameSpecifiers]
    rw [QueryDraft.build, QueryDraft.build, QueryDraft.scope, QueryDraft.scope, sameRows,
      sameColumns]

/-- Selectors given twice, an empty stem and a malformed specifier beside a conflict. -/
theorem build_follows_repeatedSelectors :
    (QueryDraft.ofOptions [.endRow [], .column "a:b:c", .exactRow [97]]).build =
        .error (.conflictingSelectors [.exactRow, .endRow]) ∧
      (∃ query, (QueryDraft.ofOptions [.rowStem [97], .column "f:", .rowStem []]).build =
          .ok query ∧ ∀ row, query.rows.contains row = true) ∧
      (QueryDraft.ofOptions [.rowStem [97], .column "f:", .rowStem []]).build =
        (QueryDraft.ofOptions [.columns ["f:"], .rowStem []]).build := by
  refine ⟨?_, ?_, ?_⟩
  · apply ((build_follows_sequence _).1 _).2
    exact .modes ⟨.exactRow, .endRow, by decide, by decide, by decide⟩
  · have accepted : ∀ mistake,
        ¬ RefusedFor [.rowStem [97], .column "f:", .rowStem []] mistake := by
      intro mistake refused
      rw [refusedFor_iff] at refused
      cases refused
    rcases (build_follows_sequence _).2.1 accepted with ⟨query, built, contains⟩
    refine ⟨query, built, ?_⟩
    intro row
    exact (contains row).2 (.rowStem rfl List.nil_prefix)
  · apply (build_follows_sequence _).2.2
    · intro selector
      cases selector <;> rfl
    · rfl

end QueryOption

end DataflowOps
