import Mathlib.Data.List.Dedup
import DataflowOps.Proofs.Decoding
import DataflowOps.Proofs.Selection

/-!
# Specifiers and the patterns that they write

Every pattern whose parts are texts without a colon is written by exactly one specifier, and a
specifier with at most one colon writes such a pattern. A query keeps the patterns as a set in their
order, so that it depends only on which specifiers were given, and it matches the parts of columns
byte by byte. Where these parts are themselves texts without a colon this is a match of texts.
-/

namespace DataflowOps

namespace Utf8

theorem lenient_encodeChars (characters : List Char) :
    lenient (encodeChars characters) = String.ofList characters := by
  simp [lenient, pieces_encodeChars, Function.comp_def]

theorem lenient_encode (text : String) : lenient (encode text) = text := by
  rw [encode, lenient_encodeChars, String.ofList_toList]

end Utf8

namespace ColumnPattern

/-- Whether bytes are a text without a colon. -/
def IsPlain (bytes : Bytes) : Prop :=
  ∃ characters, Utf8.decode? bytes = some characters ∧ Column.separator ∉ characters

/-- Whether the parts of a pattern are texts without a colon. -/
def IsWritable : ColumnPattern → Prop
  | family name => IsPlain name
  | column name qualifier => IsPlain name ∧ IsPlain qualifier

/-- The text of a pattern: a family, or a family and a qualifier with a colon between them. -/
def text : ColumnPattern → String
  | family name => Utf8.lenient name
  | column name qualifier => Column.text ⟨name, qualifier⟩

/-- The colon as a byte. -/
def colon : UInt8 := 0x3a

/-- The bytes of a pattern: a family, or a family and a qualifier with a colon between them. -/
def bytes : ColumnPattern → Bytes
  | family name => name
  | column name qualifier => name ++ colon :: qualifier

/-- Whether the parts of a pattern, which need not be texts, hold no colon. -/
def NoColon : ColumnPattern → Prop
  | family name => colon ∉ name
  | column name qualifier => colon ∉ name ∧ colon ∉ qualifier

variable {specifier : String} {pattern : ColumnPattern}

theorem isPlain_iff {bytes : Bytes} :
    IsPlain bytes ↔ ∃ characters, Column.separator ∉ characters ∧
      bytes = Utf8.encodeChars characters := by
  simp only [IsPlain, Utf8.decode?_eq_some_iff, and_comm]

theorem isPlain_encodeChars {characters : List Char} (noColon : Column.separator ∉ characters) :
    IsPlain (Utf8.encodeChars characters) :=
  isPlain_iff.2 ⟨characters, noColon, rfl⟩

theorem toList_text_column (family qualifier : List Char) :
    (text (.column (Utf8.encodeChars family) (Utf8.encodeChars qualifier))).toList =
      family ++ Column.separator :: qualifier := by
  simp [text, Column.text, Utf8.lenient_encodeChars]

/-- A specifier writes a pattern exactly if it is the text of it and the pattern can be written. -/
theorem parse_eq_ok_iff :
    parse specifier = .ok pattern ↔ pattern.IsWritable ∧ pattern.text = specifier := by
  constructor
  · intro parsed
    by_cases present : Column.separator ∈ specifier.toList
    · rcases List.eq_append_cons_of_mem present with ⟨family, qualifier, cut, noColon⟩
      rw [parse_of_cut cut noColon] at parsed
      split at parsed
      · cases parsed
      · next noSecond =>
        cases parsed
        refine ⟨⟨isPlain_encodeChars noColon, isPlain_encodeChars noSecond⟩, ?_⟩
        apply String.toList_inj.1
        rw [toList_text_column, cut]
    · rw [parse_of_not_mem present] at parsed
      cases parsed
      exact ⟨isPlain_encodeChars present, Utf8.lenient_encode specifier⟩
  · rintro ⟨writable, rfl⟩
    cases pattern with
    | family name =>
        rcases isPlain_iff.1 writable with ⟨characters, noColon, rfl⟩
        rw [text, Utf8.lenient_encodeChars, parse_of_not_mem]
        · rw [Utf8.encode, String.toList_ofList]
        · rwa [String.toList_ofList]
    | column name qualifier =>
        rcases isPlain_iff.1 writable.1 with ⟨family, noColon, rfl⟩
        rcases isPlain_iff.1 writable.2 with ⟨characters, noSecond, rfl⟩
        rw [parse_of_cut (toList_text_column family characters) noColon, if_neg noSecond]

theorem encodeChars_cut (family qualifier : List Char) :
    Utf8.encodeChars (family ++ Column.separator :: qualifier) =
      Utf8.encodeChars family ++ colon :: Utf8.encodeChars qualifier :=
  Utf8.encodeChars_append family (Column.separator :: qualifier)

theorem colon_mem_encodeChars_iff {characters : List Char} :
    colon ∈ Utf8.encodeChars characters ↔ Column.separator ∈ characters := by
  constructor
  · intro member
    exact Utf8.mem_of_mem_encodeChars member (by decide)
  · intro present
    rcases List.append_of_mem present with ⟨earlier, later, rfl⟩
    rw [encodeChars_cut]
    exact List.mem_append_right _ List.mem_cons_self

/-- A specifier is parsed to the pattern of which its bytes are the bytes. A pattern that is no text
has no specifier. -/
theorem parse_eq_ok_iff_bytes :
    parse specifier = .ok pattern ↔ pattern.NoColon ∧ pattern.bytes = Utf8.encode specifier := by
  constructor
  · intro parsed
    rcases parse_eq_ok_iff.1 parsed with ⟨writable, rfl⟩
    cases pattern with
    | family name =>
        rcases isPlain_iff.1 writable with ⟨characters, noColon, rfl⟩
        refine ⟨mt colon_mem_encodeChars_iff.1 noColon, ?_⟩
        rw [bytes, text, Utf8.lenient_encodeChars, Utf8.encode, String.toList_ofList]
    | column name qualifier =>
        rcases isPlain_iff.1 writable.1 with ⟨family, noColon, rfl⟩
        rcases isPlain_iff.1 writable.2 with ⟨characters, noSecond, rfl⟩
        refine ⟨⟨mt colon_mem_encodeChars_iff.1 noColon, mt colon_mem_encodeChars_iff.1 noSecond⟩,
          ?_⟩
        rw [bytes, Utf8.encode, toList_text_column, encodeChars_cut]
  · rintro ⟨noColon, same⟩
    cases pattern with
    | family name =>
        cases same
        exact parse_of_not_mem (mt colon_mem_encodeChars_iff.2 noColon)
    | column name qualifier =>
        have present : Column.separator ∈ specifier.toList := by
          apply colon_mem_encodeChars_iff.1
          rw [← Utf8.encode, ← same]
          exact List.mem_append_right name List.mem_cons_self
        rcases List.eq_append_cons_of_mem present with ⟨family, characters, cut, absent⟩
        rw [bytes, Utf8.encode, cut, encodeChars_cut] at same
        rcases (List.append_cons_inj_of_notMem noColon.1 noColon.2).1 same with ⟨rfl, _, rfl⟩
        rw [parse_of_cut cut absent, if_neg (mt colon_mem_encodeChars_iff.2 noColon.2)]

theorem exists_parse_iff :
    (∃ pattern, parse specifier = .ok pattern) ↔ ¬ IsMalformed specifier := by
  constructor
  · rintro ⟨pattern, parsed⟩ malformed
    rw [parse_of_isMalformed malformed] at parsed
    cases parsed
  · intro wellFormed
    rcases parse_of_not_isMalformed wellFormed with ⟨pattern, parsed, _⟩
    exact ⟨pattern, parsed⟩

/-- A specifier is refused exactly if it has more than one colon. -/
theorem parse_eq_error_iff {mistake : OperatorMistake} :
    parse specifier = .error mistake ↔
      IsMalformed specifier ∧ mistake = .tooManyFields specifier := by
  constructor
  · intro refused
    by_cases malformed : IsMalformed specifier
    · rw [parse_of_isMalformed malformed] at refused
      cases refused
      exact ⟨malformed, rfl⟩
    · rcases exists_parse_iff.2 malformed with ⟨pattern, parsed⟩
      rw [parsed] at refused
      cases refused
  · rintro ⟨malformed, rfl⟩
    exact parse_of_isMalformed malformed

/-- Patterns that can be written are told apart by their texts. -/
theorem text_injective {left right : ColumnPattern} (leftWritable : left.IsWritable)
    (rightWritable : right.IsWritable) (same : left.text = right.text) : left = right := by
  have parsed := parse_eq_ok_iff.2 ⟨leftWritable, same⟩
  rw [parse_eq_ok_iff.2 ⟨rightWritable, rfl⟩] at parsed
  cases parsed
  rfl

theorem accepts_iff {stored : Column} :
    pattern.accepts stored = true ↔
      pattern = .family stored.family ∨ pattern = .column stored.family stored.qualifier := by
  cases pattern with
  | family name =>
      simp only [accepts, beq_iff_eq, family.injEq, reduceCtorEq, or_false]
      exact eq_comm
  | column name qualifier =>
      simp only [accepts, Bool.and_eq_true, beq_iff_eq, column.injEq, reduceCtorEq, false_or]
      exact and_congr eq_comm eq_comm

/-- An empty qualifier after the colon is different from no qualifier. -/
theorem parse_append_colon {name : String} (noColon : Column.separator ∉ name.toList) :
    parse (name ++ ":") = .ok (.column (Utf8.encode name) []) := by
  have cut : (name ++ ":").toList = name.toList ++ Column.separator :: [] :=
    String.toList_append
  rw [parse_of_cut cut noColon, if_neg List.not_mem_nil]
  rfl

/-- A column whose parts are texts without a colon is asked for by its family's text and by its own
text, and by no other specifier. -/
theorem accepts_iff_text {stored : Column} (plainFamily : IsPlain stored.family)
    (plainQualifier : IsPlain stored.qualifier) (parsed : parse specifier = .ok pattern) :
    pattern.accepts stored = true ↔
      specifier = Utf8.lenient stored.family ∨ specifier = stored.text := by
  rcases parse_eq_ok_iff.1 parsed with ⟨writable, rfl⟩
  have family : IsWritable (.family stored.family) := plainFamily
  have whole : IsWritable (.column stored.family stored.qualifier) := ⟨plainFamily, plainQualifier⟩
  rw [accepts_iff]
  apply or_congr
  · constructor
    · rintro rfl
      rfl
    · intro same
      exact text_injective writable family same
  · constructor
    · rintro rfl
      rfl
    · intro same
      exact text_injective writable whole same

/-- Specifiers are the texts of the patterns that they write, one by one. -/
theorem map_text_of_mapM_parse {specifiers : List String} {patterns : List ColumnPattern}
    (parsed : specifiers.mapM parse = .ok patterns) :
    (∀ pattern ∈ patterns, pattern.IsWritable) ∧ patterns.map text = specifiers := by
  induction specifiers generalizing patterns with
  | nil =>
      cases parsed
      exact ⟨by simp, rfl⟩
  | cons specifier rest ih =>
      rw [List.mapM_cons] at parsed
      cases first : parse specifier with
      | error mistake =>
          rw [first] at parsed
          cases parsed
      | ok pattern =>
          cases later : rest.mapM parse with
          | error mistake =>
              rw [first, later] at parsed
              cases parsed
          | ok others =>
              rw [first, later] at parsed
              cases parsed
              rcases parse_eq_ok_iff.1 first with ⟨writable, written⟩
              rcases ih later with ⟨othersWritable, othersWritten⟩
              refine ⟨List.forall_mem_cons.2 ⟨writable, othersWritable⟩, ?_⟩
              rw [List.map_cons, written, othersWritten]

theorem mem_of_mapM_parse {specifiers : List String} {patterns : List ColumnPattern}
    (parsed : specifiers.mapM parse = .ok patterns) :
    pattern ∈ patterns ↔ pattern.IsWritable ∧ pattern.text ∈ specifiers := by
  rcases map_text_of_mapM_parse parsed with ⟨writable, rfl⟩
  constructor
  · intro member
    exact ⟨writable pattern member, List.mem_map_of_mem member⟩
  · rintro ⟨patternWritable, written⟩
    rcases List.mem_map.1 written with ⟨other, member, same⟩
    exact text_injective (writable other member) patternWritable same ▸ member

/-- Patterns in ascending order are families in ascending order followed by such columns. -/
theorem eq_append_of_ascending {patterns : List ColumnPattern}
    (ascending : patterns.Pairwise (· < ·)) :
    ∃ (families : List Bytes) (columns : List Column),
      patterns = families.map family ++
          columns.map (fun stored => column stored.family stored.qualifier) ∧
        families.Pairwise (· < ·) ∧ columns.Pairwise (· < ·) := by
  induction patterns with
  | nil => exact ⟨[], [], rfl, .nil, .nil⟩
  | cons pattern rest ih =>
      rcases List.pairwise_cons.1 ascending with ⟨before, restAscending⟩
      rcases ih restAscending with ⟨families, columns, rfl, familiesAscending, columnsAscending⟩
      cases pattern with
      | family name =>
          refine ⟨name :: families, columns, rfl, ?_, columnsAscending⟩
          apply List.pairwise_cons.2 ⟨?_, familiesAscending⟩
          intro other member
          exact before (.family other) (List.mem_append_left _ (List.mem_map_of_mem member))
      | column name qualifier =>
          -- No family comes after a column.
          have noFamily : families = [] := by
            apply List.eq_nil_iff_forall_not_mem.2
            intro other member
            exact before (.family other) (List.mem_append_left _ (List.mem_map_of_mem member))
          subst noFamily
          refine ⟨[], ⟨name, qualifier⟩ :: columns, rfl, .nil, ?_⟩
          apply List.pairwise_cons.2 ⟨?_, columnsAscending⟩
          intro other member
          exact before (.column other.family other.qualifier) (List.mem_map_of_mem member)

namespace Collection

theorem ext_keys {left right : Collection} (same : left.keys = right.keys) : left = right := by
  have entries (collection : Collection) :
      collection.entries = collection.keys.map fun pattern => (pattern, ()) := by
    simp [OrderedMap.keys, Function.comp_def]
  have sameEntries : left.entries = right.entries := by rw [entries, entries, same]
  cases left
  cases right
  cases sameEntries
  rfl

/-- A set of patterns is determined by its members. -/
theorem ofList_congr {left right : List ColumnPattern}
    (same : ∀ pattern, pattern ∈ left ↔ pattern ∈ right) : ofList left = ofList right := by
  apply ext_keys
  have asymm (earlier later : ColumnPattern) (before : earlier < later) : ¬ later < earlier :=
    StrictTotalOrder.asymm before
  apply eq_of_ascending asymm (OrderedMap.keys_ascending _) (OrderedMap.keys_ascending _)
  intro pattern
  rw [mem_keys_ofList, mem_keys_ofList, same]

end Collection

end ColumnPattern

namespace Query

variable {scope : RowScope} {specifiers : List String}

/-- A query whose patterns are those that specifiers write. It selects the columns that they ask
for and lists each of them once, families before columns. -/
structure Keeps (specifiers : List String) (query : Query) : Prop where
  selects : ∀ column, query.selects column = true ↔
    specifiers = [] ∨ ∃ specifier ∈ specifiers, ColumnPattern.Asks specifier column
  once : (query.patterns.keys.map ColumnPattern.text).Perm specifiers.dedup
  inOrder : ∃ (families : List Bytes) (columns : List Column),
    query.patterns.keys = families.map .family ++
        columns.map (fun stored => .column stored.family stored.qualifier) ∧
      families.Pairwise (· < ·) ∧ columns.Pairwise (· < ·)

theorem once_of_mapM_parse {patterns : List ColumnPattern}
    (parsed : specifiers.mapM ColumnPattern.parse = .ok patterns) :
    ((ColumnPattern.Collection.ofList patterns).keys.map ColumnPattern.text).Perm
      specifiers.dedup := by
  rcases ColumnPattern.map_text_of_mapM_parse parsed with ⟨writable, rfl⟩
  have distinct :
      ((ColumnPattern.Collection.ofList patterns).keys.map ColumnPattern.text).Nodup := by
    apply List.Nodup.map_on
    · intro left leftMember right rightMember same
      rw [ColumnPattern.Collection.mem_keys_ofList] at leftMember rightMember
      exact ColumnPattern.text_injective (writable left leftMember) (writable right rightMember)
        same
    · exact OrderedMap.keys_nodup _
  apply (List.perm_ext_iff_of_nodup distinct (List.nodup_dedup _)).2
  intro text
  simp only [List.mem_dedup, List.mem_map, ColumnPattern.Collection.mem_keys_ofList]

/-- Well-formed specifiers, in whatever order and however often, are one query that keeps them. -/
theorem exists_build_keeps (scope : RowScope)
    (wellFormed : ∀ specifier ∈ specifiers, ¬ ColumnPattern.IsMalformed specifier) :
    ∃ query, Keeps specifiers query ∧
      ∀ others, (∀ specifier, specifier ∈ others ↔ specifier ∈ specifiers) →
        build scope others = .ok query := by
  rcases mapM_parse_of_wellFormed wellFormed with ⟨patterns, parsed, noPatterns, accepts⟩
  refine ⟨⟨scope.interval, .ofList patterns⟩, ?_, ?_⟩
  · constructor
    case selects =>
      intro column
      rw [selects_ofList_iff, noPatterns, accepts]
    case once => exact once_of_mapM_parse parsed
    case inOrder =>
      exact ColumnPattern.eq_append_of_ascending (OrderedMap.keys_ascending _)
  · intro others same
    have othersWellFormed : ∀ specifier ∈ others, ¬ ColumnPattern.IsMalformed specifier := by
      intro specifier member
      exact wellFormed specifier ((same specifier).1 member)
    rcases mapM_parse_of_wellFormed othersWellFormed with ⟨otherPatterns, otherParsed, _⟩
    have samePatterns : ColumnPattern.Collection.ofList otherPatterns = .ofList patterns := by
      apply ColumnPattern.Collection.ofList_congr
      intro pattern
      rw [ColumnPattern.mem_of_mapM_parse otherParsed, ColumnPattern.mem_of_mapM_parse parsed, same]
    rw [build_of_mapM_parse scope otherParsed, samePatterns]

/-- Which specifiers are accepted, what they write and what they select. -/
theorem specifiers_determine_selection :
    (∀ specifier, (∃ pattern, ColumnPattern.parse specifier = .ok pattern) ↔
        specifier.toList.count Column.separator ≤ 1) ∧
      (∀ specifier mistake, ColumnPattern.parse specifier = .error mistake ↔
        1 < specifier.toList.count Column.separator ∧ mistake = .tooManyFields specifier) ∧
      (∀ specifier pattern, ColumnPattern.parse specifier = .ok pattern ↔
        pattern.IsWritable ∧ pattern.text = specifier) ∧
      (∀ specifier pattern, ColumnPattern.parse specifier = .ok pattern ↔
        pattern.NoColon ∧ pattern.bytes = Utf8.encode specifier) ∧
      (∀ specifier other pattern, ColumnPattern.parse specifier = .ok pattern →
        ColumnPattern.parse other = .ok pattern → specifier = other) ∧
      (∀ family : String, Column.separator ∉ family.toList →
        ColumnPattern.parse family = .ok (.family (Utf8.encode family)) ∧
          ColumnPattern.parse (family ++ ":") = .ok (.column (Utf8.encode family) [])) ∧
      (∀ scope specifiers,
        (∀ specifier ∈ specifiers, specifier.toList.count Column.separator ≤ 1) →
          ∃ query, build scope specifiers = .ok query ∧ Keeps specifiers query ∧
            ∀ others, (∀ specifier, specifier ∈ others ↔ specifier ∈ specifiers) →
              build scope others = .ok query) ∧
      ∀ column : Column, ColumnPattern.IsPlain column.family →
        ColumnPattern.IsPlain column.qualifier →
          (∀ specifier pattern, ColumnPattern.parse specifier = .ok pattern →
            (pattern.accepts column = true ↔
              specifier = Utf8.lenient column.family ∨ specifier = column.text)) ∧
          ∃ pattern, ColumnPattern.parse column.text = .ok pattern ∧
            ∀ other, pattern.accepts other = true ↔ other = column := by
  refine ⟨?_, ?_, ?_, ?_, ?_, ?_, ?_, ?_⟩
  · intro specifier
    rw [ColumnPattern.exists_parse_iff, ColumnPattern.IsMalformed, Nat.not_lt]
  · intro specifier mistake
    exact ColumnPattern.parse_eq_error_iff
  · intro specifier pattern
    exact ColumnPattern.parse_eq_ok_iff
  · intro specifier pattern
    exact ColumnPattern.parse_eq_ok_iff_bytes
  · intro specifier other pattern parsed otherParsed
    rw [← (ColumnPattern.parse_eq_ok_iff.1 parsed).2,
      ← (ColumnPattern.parse_eq_ok_iff.1 otherParsed).2]
  · intro family noColon
    exact ⟨ColumnPattern.parse_of_not_mem noColon, ColumnPattern.parse_append_colon noColon⟩
  · intro scope specifiers wellFormed
    rcases exists_build_keeps scope fun specifier member =>
      Nat.not_lt.2 (wellFormed specifier member) with ⟨query, keeps, built⟩
    exact ⟨query, built specifiers fun _ => Iff.rfl, keeps, built⟩
  · intro column plainFamily plainQualifier
    refine ⟨?_, ?_⟩
    · intro specifier pattern parsed
      exact ColumnPattern.accepts_iff_text plainFamily plainQualifier parsed
    · refine ⟨.column column.family column.qualifier, ?_, ?_⟩
      · exact ColumnPattern.parse_eq_ok_iff.2 ⟨⟨plainFamily, plainQualifier⟩, rfl⟩
      · intro other
        cases column
        cases other
        simp [ColumnPattern.accepts]

/-- Specifiers of empty parts, out of order and given twice. -/
theorem specifiers_determine_selection_emptyParts :
    ColumnPattern.parse "a::" = .error (.tooManyFields "a::") ∧
      (∃ query, build .all [":", "f:", "f", ":"] = .ok query ∧
        build .all ["f", "f:", ":"] = .ok query ∧ query.selects ⟨[], []⟩ = true) ∧
      ∃ pattern, ColumnPattern.parse (Column.text ⟨[102], []⟩) = .ok pattern ∧
        ∀ other, pattern.accepts other = true ↔ other = ⟨[102], []⟩ := by
  rcases specifiers_determine_selection with ⟨_, refused, _, _, _, _, built, plain⟩
  refine ⟨(refused _ _).2 ⟨by decide, rfl⟩, ?_, ?_⟩
  · rcases built .all [":", "f:", "f", ":"] (by decide) with ⟨query, first, keeps, others⟩
    refine ⟨query, first, others _ ?_, ?_⟩
    · intro specifier
      simp only [List.mem_cons, List.not_mem_nil, or_false]
      tauto
    · apply (keeps.selects _).2
      refine Or.inr ⟨":", List.mem_cons_self, Or.inr ⟨[], [], rfl, ?_⟩⟩
      exact ⟨List.not_mem_nil, List.not_mem_nil, rfl⟩
  · exact (plain ⟨[102], []⟩ ⟨['f'], rfl, by decide⟩ ⟨[], rfl, List.not_mem_nil⟩).2

end Query

end DataflowOps
