import DataflowOps.Proofs.SettingValues

/-!
# Placed options

Options that choose settings may stand before the command or after it, in any order. This file
states the invocation that a command line comes to in terms of the texts written for its options.
The values of a level hold what has been written there so far, and each option keeps them so. Where
an option stands makes no difference to its setting, nor does it matter over how many options the
column specifiers are spread.
-/

namespace DataflowOps

/-- An option written in one argument. The columns are a list of specifiers, joined by commas. -/
inductive WrittenOption where
  | setting (setting : Setting) (text : String)
  | row (selector : RowSelector) (text : String)
  | columns (specifiers : List String)
  deriving DecidableEq

namespace WrittenOption

def option : WrittenOption → OptionName
  | setting chosen _ => .setting chosen
  | row .exactRow _ => .selection .exactRow
  | row .rowStem _ => .selection .rowStem
  | row .startRow _ => .selection .startRow
  | row .endRow _ => .selection .endRow
  | columns _ => .selection .columns

def text : WrittenOption → String
  | setting _ text => text
  | row _ text => text
  | columns specifiers => ",".intercalate specifiers

def argument (written : WrittenOption) : String :=
  "--" ++ written.option.long ++ "=" ++ written.text

/-- Whether the text of an option is valid for it. -/
def Valid : WrittenOption → Prop
  | setting chosen text => (chosen.read? text).isSome
  | row _ _ => True
  | columns specifiers => specifiers ≠ [] ∧ ∀ specifier ∈ specifiers, ',' ∉ specifier.toList

instance : DecidablePred Valid
  | setting chosen text => inferInstanceAs (Decidable ((chosen.read? text).isSome = true))
  | row _ _ => .isTrue trivial
  | columns specifiers =>
    inferInstanceAs
      (Decidable (specifiers ≠ [] ∧ ∀ specifier ∈ specifiers, ',' ∉ specifier.toList))

def specifiers : WrittenOption → List String
  | columns specifiers => specifiers
  | _ => []

/-- Options on one line, of which only those for columns are repeated. -/
def Once (line : List WrittenOption) : Prop :=
  line.Pairwise fun earlier later =>
    earlier.option = later.option → later.option = .selection .columns

/-- The text that a line has for an option. -/
def textFor? (line : List WrittenOption) (option : OptionName) : Option String :=
  (line.find? fun written => written.option = option).map text

/-- The selection that the options of a line ask for. -/
def scanOptions (line : List WrittenOption) : ScanOptions where
  exactRow := textFor? line (.selection .exactRow)
  rowStem := textFor? line (.selection .rowStem)
  startRow := textFor? line (.selection .startRow)
  endRow := textFor? line (.selection .endRow)
  columns := line.flatMap specifiers

variable {line past : List WrittenOption} {written : WrittenOption}

theorem equals_notMem_long (option : OptionName) : '=' ∉ option.long.toList := by
  cases option with
  | setting setting => cases setting <;> decide
  | selection selection => cases selection <;> decide

theorem toList_argument (written : WrittenOption) :
    written.argument.toList =
      '-' :: '-' :: (written.option.long.toList ++ '=' :: written.text.toList) := by
  simp [argument]

/-- The argument of an option is read back as its name and its text. -/
theorem read_argument (written : WrittenOption) :
    Argument.read written.argument = .long written.option.long (some written.text) := by
  have isName : ∀ character ∈ written.option.long.toList, decide (character ≠ '=') = true := by
    intro character member
    rw [decide_eq_true_iff]
    rintro rfl
    exact equals_notMem_long _ member
  have readLong : Argument.readLong (written.option.long.toList ++ '=' :: written.text.toList) =
      .long written.option.long (some written.text) := by
    rw [Argument.readLong, List.takeWhile_append_of_pos isName, List.dropWhile_append_of_pos isName]
    simp
  rw [Argument.read, toList_argument, ← readLong]
  cases written.option.long.toList <;> rfl

theorem findCommand?_argument (level : Level) (written : WrittenOption) :
    level.findCommand? written.argument = none := by
  apply List.find?_eq_none.2
  intro command _ same
  have first : command.text.toList.head? = some '-' := by
    rw [eq_of_beq same, toList_argument]
    rfl
  revert first
  cases command <;> decide

/-- An option is found by its name at each level that takes it. -/
theorem findLong?_long {level : Level} {option : OptionName}
    (taken : .value option ∈ level.requests) :
    level.findLong? option.long = some (.value option) := by
  revert taken
  cases option with
  | setting setting => cases level <;> cases setting <;> decide
  | selection selection => cases level <;> cases selection <;> decide

theorem textFor?_append (line rest : List WrittenOption) (option : OptionName) :
    textFor? (line ++ rest) option = (textFor? line option).or (textFor? rest option) := by
  rw [textFor?, List.find?_append, Option.map_or]
  rfl

theorem textFor?_concat (line : List WrittenOption) (written : WrittenOption)
    (option : OptionName) :
    textFor? (line ++ [written]) option =
      (textFor? line option).or (if written.option = option then some written.text else none) := by
  rw [textFor?_append]
  by_cases same : written.option = option <;> simp [textFor?, same]

theorem textFor?_eq_none {option : OptionName}
    (absent : ∀ earlier ∈ line, earlier.option ≠ option) : textFor? line option = none := by
  rw [textFor?, List.find?_eq_none.2, Option.map_none]
  intro earlier member
  simpa using absent earlier member

theorem exists_of_textFor? {option : OptionName} {text : String}
    (found : textFor? line option = some text) :
    ∃ written ∈ line, written.option = option ∧ written.text = text := by
  rcases Option.map_eq_some_iff.1 found with ⟨written, first, rfl⟩
  exact ⟨written, List.mem_of_find?_eq_some first, by simpa using List.find?_some first, rfl⟩

/-- The text of a setting on a line of valid options is valid for it. -/
theorem valid_of_textFor? (valid : ∀ written ∈ line, written.Valid) (setting : Setting) :
    ∀ text ∈ textFor? line (.setting setting), (setting.read? text).isSome := by
  intro text found
  rcases exists_of_textFor? found with ⟨written, member, named, rfl⟩
  cases written with
  | setting chosen text =>
      cases named
      exact valid _ member
  | row selector text => cases selector <;> cases named
  | columns specifiers => cases named

/-- It makes no difference which of two lines comes first to an option that is not repeated. -/
theorem textFor?_swap {rest : List WrittenOption} (once : Once (line ++ rest))
    {option : OptionName} (single : option ≠ .selection .columns) :
    textFor? (line ++ rest) option = textFor? (rest ++ line) option := by
  rw [textFor?_append, textFor?_append]
  cases found : textFor? line option with
  | none => rw [Option.none_or, Option.or_none]
  | some text =>
      rcases exists_of_textFor? found with ⟨earlier, member, rfl, _⟩
      have absent : textFor? rest earlier.option = none := by
        apply textFor?_eq_none
        intro later memberLater same
        have across := (List.pairwise_append.1 once).2.2
        exact single (same.symm.trans (across earlier member later memberLater same.symm))
      rw [absent, Option.or_none, Option.none_or]

end WrittenOption

namespace Fields

theorem split_eq_splitOn {Symbol : Type} [DecidableEq Symbol] (separator : Symbol)
    (symbols : List Symbol) : split separator symbols = symbols.splitOn separator := by
  induction symbols with
  | nil => rfl
  | cons symbol rest ih =>
      rw [split, ih, List.splitOn, List.splitOn, List.splitOnP_cons_eq_if_modifyHead]
      cases fields : rest.splitOnP (· == separator) with
      | nil => exact absurd fields (List.splitOnP_ne_nil _ _)
      | cons field fields => simp [extendFirst]

end Fields

namespace GivenValues

open WrittenOption

/-- Values that hold what a line has for each option. -/
structure Holds (values : GivenValues) (line : List WrittenOption) : Prop where
  settings : ∀ setting,
    values.settings.value? setting = (textFor? line (.setting setting)).bind setting.read?
  selection : values.selection = scanOptions line

theorem holds_nil : Holds {} [] where
  settings := by
    intro setting
    cases setting <;> rfl
  selection := rfl

variable {values : GivenValues} {past : List WrittenOption} {written : WrittenOption}

/-- Specifiers without commas that are joined by commas come apart again. -/
theorem fields_of_columns {specifiers : List String} (valid : (columns specifiers).Valid) :
    (Fields.split ',' (columns specifiers).text.toList).map String.ofList = specifiers := by
  have noComma : ∀ field ∈ specifiers.map String.toList, ',' ∉ field := by
    intro field member
    rcases List.mem_map.1 member with ⟨specifier, isGiven, rfl⟩
    exact valid.2 specifier isGiven
  have separator : ",".toList = [','] := rfl
  rw [Fields.split_eq_splitOn, text, String.toList_intercalate, separator,
    List.splitOn_intercalate ',' noComma (by simpa using valid.1), List.map_map]
  simp [Function.comp_def]

/-- An option for a setting leaves the selection as it is. -/
theorem scanOptions_concat_setting (past : List WrittenOption) (chosen : Setting) (text : String) :
    scanOptions (past ++ [.setting chosen text]) = scanOptions past := by
  simp only [scanOptions, textFor?_concat]
  simp [option, specifiers]

/-- An option of the selection changes it as its text says. -/
theorem scanOptions_concat_selection {selection : Selection}
    (named : written.option = .selection selection) (valid : written.Valid)
    (absent : selection ≠ .columns → textFor? past written.option = none) :
    scanOptions (past ++ [written]) = select (scanOptions past) written.text selection := by
  cases written with
  | setting chosen text => cases named
  | row selector text =>
      cases selector <;> cases named <;> simp only [option] at absent <;>
        simp only [scanOptions, textFor?_concat, select, absent nofun] <;>
        simp [option, specifiers, WrittenOption.text]
  | columns specifiers =>
      cases named
      rw [select, fields_of_columns valid]
      simp only [scanOptions, textFor?_concat]
      simp [option, WrittenOption.specifiers]

/-- An option that the line does not have is no repetition. -/
theorem Holds.repeats_eq_false (holds : values.Holds past) {option : OptionName}
    (absent : option ≠ .selection .columns → textFor? past option = none) :
    values.repeats option = false := by
  cases option with
  | setting chosen =>
      rw [repeats, SettingValues.gives_eq_isSome, holds.settings, absent nofun]
      rfl
  | selection selection =>
      cases selection with
      | columns => rfl
      | _ =>
          rw [repeats, holds.selection]
          exact Option.isSome_eq_false_iff.2 (Option.isNone_iff_eq_none.2 (absent nofun))

theorem Holds.exists_add_setting (holds : values.Holds past) {chosen : Setting} {text : String}
    (valid : (setting chosen text).Valid) (absent : textFor? past (.setting chosen) = none) :
    ∃ next, values.add (.setting chosen) text = .ok next ∧
      next.Holds (past ++ [.setting chosen text]) := by
  have fresh : values.repeats (.setting chosen) = false :=
    holds.repeats_eq_false fun _ => absent
  rcases values.settings.exists_assign valid with ⟨settings, assigned, changed⟩
  refine ⟨{ values with settings }, ?_, ?_, ?_⟩
  · rw [add, fresh, assigned]
    rfl
  · intro other
    rw [changed, holds.settings, textFor?_concat]
    by_cases same : other = chosen
    · subst same
      rw [absent]
      simp [option, WrittenOption.text]
    · simp [same, Ne.symm same, option]
  · rw [scanOptions_concat_setting, holds.selection]

theorem Holds.exists_add_selection (holds : values.Holds past) {selection : Selection}
    (named : written.option = .selection selection) (valid : written.Valid)
    (absent : selection ≠ .columns → textFor? past written.option = none) :
    ∃ next, values.add (.selection selection) written.text = .ok next ∧
      next.Holds (past ++ [written]) := by
  have fresh : values.repeats (.selection selection) = false := by
    apply holds.repeats_eq_false
    intro single
    rw [← named]
    apply absent
    rintro rfl
    exact single rfl
  refine ⟨{ values with selection := select values.selection written.text selection }, ?_, ?_, ?_⟩
  · rw [add, fresh]
    rfl
  · intro other
    rw [holds.settings, textFor?_concat, named]
    simp
  · rw [scanOptions_concat_selection named valid absent, holds.selection]

/-- An option that is valid and not given yet is added to the values. -/
theorem Holds.exists_add (holds : values.Holds past) (valid : written.Valid)
    (once : ∀ earlier ∈ past,
      earlier.option = written.option → written.option = .selection .columns) :
    ∃ next, values.add written.option written.text = .ok next ∧ next.Holds (past ++ [written]) := by
  have absent (single : written.option ≠ .selection .columns) :
      textFor? past written.option = none := by
    apply textFor?_eq_none
    intro earlier member same
    exact single (once earlier member same)
  cases written with
  | setting chosen text => exact holds.exists_add_setting valid (absent nofun)
  | row selector text =>
      cases selector <;> exact holds.exists_add_selection rfl valid fun _ => absent nofun
  | columns specifiers => exact holds.exists_add_selection rfl valid fun other => absurd rfl other

end GivenValues

namespace Level

open WrittenOption

variable {level : Level} {values : GivenValues}

/-- The argument of an option is met by adding its text to the values. -/
theorem read_argument {written : WrittenOption} {next : GivenValues}
    (taken : .value written.option ∈ level.requests)
    (added : values.add written.option written.text = .ok next) (rest : List String) :
    level.read { given := values } (written.argument :: rest) =
      level.read { given := next } rest := by
  have met : ({ given := values } : LevelState).meetLong level written.argument
      written.option.long (some written.text) = .ok { given := next } := by
    simp only [LevelState.meetLong, findLong?_long taken, LevelState.meetOption,
      LevelState.resolve, bind, Except.bind, added]
    rfl
  simp only [Level.read, LevelState.awaitsValue, Bool.false_eq_true, if_false,
    findCommand?_argument, WrittenOption.read_argument, met]
  rfl

/-- A line of valid options is read to its end, and the values then hold each of them. -/
theorem exists_read_line (line : List WrittenOption) {past : List WrittenOption}
    (holds : values.Holds past) (taken : ∀ written ∈ line, .value written.option ∈ level.requests)
    (valid : ∀ written ∈ line, written.Valid) (once : Once (past ++ line)) (rest : List String) :
    ∃ next, level.read { given := values } (line.map argument ++ rest) =
        level.read { given := next } rest ∧
      next.Holds (past ++ line) := by
  induction line generalizing past values with
  | nil => exact ⟨values, rfl, by simpa using holds⟩
  | cons written line ih =>
      have onceHere : ∀ earlier ∈ past,
          earlier.option = written.option → written.option = .selection .columns := by
        intro earlier member
        exact (List.pairwise_append.1 once).2.2 earlier member written List.mem_cons_self
      rcases holds.exists_add (valid written List.mem_cons_self) onceHere with
        ⟨middle, added, middleHolds⟩
      rw [List.append_cons] at once
      rcases ih middleHolds (List.forall_mem_cons.1 taken).2 (List.forall_mem_cons.1 valid).2 once
        with ⟨next, read, nextHolds⟩
      refine ⟨next, ?_, by simpa using nextHolds⟩
      rw [← read]
      exact read_argument (taken written List.mem_cons_self) added _

/-- A command that is carried out ends the level before it. -/
theorem read_command {word : CommandWord} (rest : List String) :
    top.read { given := values } (word.text :: rest) =
      .ok ({ given := values }, some (word, rest)) := by
  cases word <;> rfl

end Level

namespace CommandWord

/-- The level of the options that follow a command which is carried out. -/
def level? : CommandWord → Option Level
  | scan => some .scan
  | wait => some .wait
  | help => none

/-- What a command asks for, given the selection among the options that follow it. -/
inductive Asks (selection : ScanOptions) : CommandWord → OperatorCommand → Prop where
  | scan : Asks selection .scan (.scan selection)
  | wait : Asks selection .wait .wait

end CommandWord

namespace Invocation

open WrittenOption

variable {environment : Environment}

theorem closeLevel_of_read {given : GivenValues} {added : SettingValues}
    (read : environment.read given.settings = .ok added) :
    closeLevel environment { given } = .ok (given, added) := by
  simp only [closeLevel, LevelState.resolve, bind, Except.bind, read]
  rfl

/-- Levels that have ended come to an invocation. A value after the command has precedence over one
before it, and both over the environment. -/
theorem exists_ofLevels (sound : environment.Sound) (command : ScanOptions → OperatorCommand)
    (top inner : GivenValues) :
    ∃ invocation, ofLevels environment command { given := top } { given := inner } =
        .ok invocation ∧
      invocation.command = command inner.selection ∧
      invocation.settings.ratePerWorker = SleepPolicy.defaultRate ∧
      ∀ setting, invocation.value? setting =
        (((inner.settings.value? setting).or (top.settings.value? setting)).or
          (environment.added? top.settings setting)).or setting.standard? := by
  rcases environment.exists_read sound inner.settings with ⟨unused, readInner, _⟩
  rcases environment.exists_read sound top.settings with ⟨added, readTop, holds⟩
  let settings := (inner.settings.orElse top.settings).orElse added
  refine ⟨⟨command inner.selection, settings.data, settings.toDraft⟩, ?_, rfl, rfl, ?_⟩
  · rw [ofLevels, closeLevel_of_read readInner, closeLevel_of_read readTop]
    rfl
  · intro setting
    rw [value?_toDraft, SettingValues.value?_orElse, SettingValues.value?_orElse, holds]

theorem parse_of_read (environment : Environment) {word : CommandWord} {level : Level}
    {arguments rest : List String} {top inner : LevelState} (carriedOut : word.level? = some level)
    (readTop : Level.top.read {} arguments = .ok (top, some (word, rest)))
    (readInner : level.read {} rest = .ok (inner, none)) :
    ∃ command : ScanOptions → OperatorCommand,
      (∀ selection, word.Asks selection (command selection)) ∧
        parse environment arguments = ofLevels environment command top inner := by
  cases word with
  | scan =>
      cases carriedOut
      refine ⟨.scan, fun _ => .scan, ?_⟩
      rw [parse, readTop]
      simp only [bind, Except.bind, readInner]
  | wait =>
      cases carriedOut
      refine ⟨fun _ => .wait, fun _ => .wait, ?_⟩
      rw [parse, readTop]
      simp only [bind, Except.bind, readInner]
  | help => cases carriedOut

/-- Options around a command: each is valid, is taken where it stands, and is not repeated unless it
is for columns. -/
structure WellPlaced (before : List WrittenOption) (level : Level) (after : List WrittenOption) :
    Prop where
  takenBefore : ∀ written ∈ before, .value written.option ∈ Level.top.requests
  takenAfter : ∀ written ∈ after, .value written.option ∈ level.requests
  valid : ∀ written ∈ before ++ after, written.Valid
  once : Once (before ++ after)

variable {before after : List WrittenOption} {level : Level} {top inner : GivenValues}

/-- The values of the two levels and the environment together are those of the texts, of which a
level has each at most once. -/
theorem settled?_of_levels (sound : environment.Sound) (placed : WellPlaced before level after)
    (topHolds : top.Holds before) (innerHolds : inner.Holds after) (setting : Setting) :
    (((inner.settings.value? setting).or (top.settings.value? setting)).or
        (environment.added? top.settings setting)).or setting.standard? =
      setting.settled? ((textFor? (before ++ after) (.setting setting)).or
        (environment.value? setting)) := by
  have validLine := valid_of_textFor? placed.valid setting
  have validAfter := valid_of_textFor? (List.forall_mem_append.1 placed.valid).2 setting
  have validText : ∀ text ∈ (textFor? (before ++ after) (.setting setting)).or
      (environment.value? setting), (setting.read? text).isSome := by
    intro text found
    rcases Option.or_eq_some_iff.1 found with written | ⟨_, set⟩
    · exact validLine text written
    · exact sound setting text set
  have swapped : textFor? (before ++ after) (.setting setting) =
      textFor? (after ++ before) (.setting setting) := textFor?_swap placed.once nofun
  rw [Setting.settled?_eq_or validText, Setting.bind_or validLine, swapped, textFor?_append,
    Setting.bind_or validAfter, ← innerHolds.settings, ← topHolds.settings, Environment.added?,
    SettingValues.gives_eq_isSome]
  congr 1
  cases inner.settings.value? setting <;> cases top.settings.value? setting <;> rfl

/-- What comes of a command line whose options are valid and stand before or after the command, in
any order. It is read. Each setting has the value written for it, or else that of its variable, or
else the standard one. A scan has the rows and the specifiers written after it. The settings are
refused exactly for sleep bounds that are inverted, and are otherwise carried over unchanged. -/
theorem placed_options_settle_invocation (sound : environment.Sound) {word : CommandWord}
    (carriedOut : word.level? = some level) (placed : WellPlaced before level after) :
    ∃ invocation,
      parse environment (before.map argument ++ word.text :: after.map argument) =
          .ok invocation ∧
        word.Asks (scanOptions after) invocation.command ∧
        (∀ setting, invocation.value? setting =
          setting.settled? ((textFor? (before ++ after) (.setting setting)).or
            (environment.value? setting))) ∧
        invocation.settings.ratePerWorker = SleepPolicy.defaultRate ∧
        (∀ mistake, invocation.settings.validate = .error mistake ↔
          invocation.settings.maximumSleep < invocation.settings.minimumSleep ∧
            mistake = .invertedSleepBounds invocation.settings.minimumSleep
              invocation.settings.maximumSleep) ∧
        (invocation.settings.minimumSleep ≤ invocation.settings.maximumSleep →
          ∃ settings, invocation.settings.validate = .ok settings ∧
            settings.draft = invocation.settings) := by
  have validBefore := (List.forall_mem_append.1 placed.valid).1
  have validAfter := (List.forall_mem_append.1 placed.valid).2
  have once := List.pairwise_append.1 placed.once
  rcases Level.exists_read_line before GivenValues.holds_nil placed.takenBefore validBefore once.1
    (word.text :: after.map argument) with ⟨top, readTop, topHolds⟩
  rcases Level.exists_read_line after GivenValues.holds_nil placed.takenAfter validAfter once.2.1 []
    with ⟨inner, readInner, innerHolds⟩
  rw [Level.read_command] at readTop
  rw [List.append_nil] at readInner
  rcases parse_of_read environment carriedOut readTop readInner with
    ⟨command, asks, parsed⟩
  rcases exists_ofLevels sound command top inner with
    ⟨invocation, closed, commanded, rate, values⟩
  refine ⟨invocation, parsed.trans closed, ?_, ?_, rate, ?_, SettingsDraft.exists_validate⟩
  · rw [commanded, innerHolds.selection]
    exact asks _
  · intro setting
    rw [values, settled?_of_levels sound placed topHolds innerHolds]
  · intro mistake
    exact SettingsDraft.validate_eq_error_iff

/-- Settings before and after a scan and in the environment, and specifiers over two options. -/
theorem placed_options_settle_spreadColumns :
    ∃ invocation,
      parse { application := some "other", retryTimeout := some "250" }
          ["--workers=4", "--min-sleep-secs=400", "scan", "--columns=a,b", "--app=x",
            "--columns=c:d"] = .ok invocation ∧
        invocation.command = .scan { columns := ["a", "b", "c:d"] } ∧
        invocation.value? .application = some (.text "x") ∧
        invocation.value? .workers = some (.number 4) ∧
        invocation.value? .retryTimeout = some (.number 250) ∧
        invocation.value? .clockReadTicks = some (.number 1) ∧
        invocation.settings.validate = .error (.invertedSleepBounds 400 300) := by
  let environment : Environment := { application := some "other", retryTimeout := some "250" }
  let before : List WrittenOption := [.setting .workers "4", .setting .minimumSleep "400"]
  let after : List WrittenOption :=
    [.columns ["a", "b"], .setting .application "x", .columns ["c:d"]]
  have sound : environment.Sound := by
    intro setting text found
    cases setting <;> cases found <;> decide
  have placed : WellPlaced before .scan after :=
    ⟨by decide, by decide, by decide, by unfold Once; decide⟩
  have carriedOut : CommandWord.scan.level? = some .scan := rfl
  rcases placed_options_settle_invocation sound carriedOut placed with
    ⟨invocation, parsed, asks, values, _, refused, _⟩
  have lowest : invocation.settings.minimumSleep = 400 :=
    SettingValue.number.inj (Option.some.inj (values .minimumSleep))
  have highest : invocation.settings.maximumSleep = 300 :=
    SettingValue.number.inj (Option.some.inj (values .maximumSleep))
  refine ⟨invocation, parsed, ?_, values .application, values .workers, values .retryTimeout,
    values .clockReadTicks, ?_⟩
  · generalize invocation.command = command at asks
    cases asks
    rfl
  · apply (refused _).2
    rw [lowest, highest]
    exact ⟨by decide, rfl⟩

end Invocation

end DataflowOps
