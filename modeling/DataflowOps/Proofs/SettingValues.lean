import DataflowOps.CommandLine.Invocation

/-!
# Values of settings

A setting has the value of the text written for it, or else that of its variable in the environment,
or else the standard one. This file reads that value off the records that hold the settings: those
of a level, those that the environment adds, and those of an invocation. The settings of an
invocation are refused for inverted sleep bounds and for nothing else.
-/

namespace DataflowOps

/-- The value of a setting. -/
inductive SettingValue where
  | text (text : String)
  | number (number : Nat)
  deriving DecidableEq

namespace Setting

/-- The value that a text writes for a setting, if it is valid there. A path is not empty and the
workers are at least one. -/
def read? : Setting → String → Option SettingValue
  | data, text => if text = "" then none else some (.text text)
  | application, text => some (.text text)
  | workers, text => ((Number.parse? text).filter (0 < ·)).map .number
  | _, text => (Number.parse? text).map .number

/-- The value of a setting that nothing is written for. There is no standard data. -/
def standard? : Setting → Option SettingValue
  | data => none
  | application => some (.text "flow")
  | workers => some (.number 1)
  | retryTimeout => some (.number 500)
  | minimumSleep => some (.number 10)
  | maximumSleep => some (.number 300)
  | clockReadTicks => some (.number 1)

/-- The value of a setting, given the text written for it, if there is one. -/
def settled? (setting : Setting) : Option String → Option SettingValue
  | none => setting.standard?
  | some text => setting.read? text

theorem settled?_eq_or {setting : Setting} {written : Option String}
    (valid : ∀ text ∈ written, (setting.read? text).isSome) :
    setting.settled? written = (written.bind setting.read?).or setting.standard? := by
  cases written with
  | none => rfl
  | some text =>
      rcases Option.isSome_iff_exists.1 (valid text rfl) with ⟨value, read⟩
      simp [settled?, read]

/-- Reading goes through to the first of two texts that there is, if that one is valid. -/
theorem bind_or {setting : Setting} {first second : Option String}
    (valid : ∀ text ∈ first, (setting.read? text).isSome) :
    (first.or second).bind setting.read? =
      (first.bind setting.read?).or (second.bind setting.read?) := by
  cases first with
  | none => rfl
  | some text =>
      rcases Option.isSome_iff_exists.1 (valid text rfl) with ⟨value, read⟩
      simp [read]

end Setting

namespace SettingValues

def value? (values : SettingValues) : Setting → Option SettingValue
  | .data => values.data.map .text
  | .application => values.application.map .text
  | .workers => values.workers.map fun workers : Positive => .number workers
  | .retryTimeout => values.retryTimeout.map .number
  | .minimumSleep => values.minimumSleep.map .number
  | .maximumSleep => values.maximumSleep.map .number
  | .clockReadTicks => values.clockReadTicks.map .number

theorem gives_eq_isSome (values : SettingValues) (setting : Setting) :
    values.gives setting = (values.value? setting).isSome := by
  cases setting <;> simp [gives, value?]

theorem value?_orElse (first second : SettingValues) (setting : Setting) :
    (first.orElse second).value? setting =
      (first.value? setting).or (second.value? setting) := by
  cases setting <;> simp [value?, orElse, Option.map_or]

theorem number_of_parse {text : String} {written : Nat} (setting : Setting)
    (parsed : Number.parse? text = some written) : number setting text = .ok written := by
  rw [number, parsed]

theorem positive_of_parse {text : String} {written : Nat} (setting : Setting)
    (parsed : Number.parse? text = some written) (known : 0 < written) :
    positive setting text = .ok ⟨written, known⟩ := by
  rw [positive, number_of_parse setting parsed]
  exact dif_pos known

/-- A valid text is assigned to its setting and changes no other one. -/
theorem exists_assign (values : SettingValues) {setting : Setting} {text : String}
    (valid : (setting.read? text).isSome) :
    ∃ next, values.assign setting text = .ok next ∧
      ∀ other, next.value? other =
        if other = setting then setting.read? text else values.value? other := by
  rcases Option.isSome_iff_exists.1 valid with ⟨value, read⟩
  rw [read]
  cases setting with
  | data =>
      have notEmpty : text ≠ "" := by
        rintro rfl
        cases read
      refine ⟨_, if_neg notEmpty, ?_⟩
      rw [Setting.read?, if_neg notEmpty] at read
      cases read
      intro other
      cases other <;> rfl
  | application =>
      cases read
      refine ⟨_, rfl, ?_⟩
      intro other
      cases other <;> rfl
  | workers =>
      rcases Option.map_eq_some_iff.1 read with ⟨written, filtered, rfl⟩
      rcases Option.filter_eq_some_iff.1 filtered with ⟨parsed, known⟩
      refine ⟨_, by rw [assign, positive_of_parse _ parsed (of_decide_eq_true known)]; rfl, ?_⟩
      intro other
      cases other <;> rfl
  | retryTimeout | minimumSleep | maximumSleep | clockReadTicks =>
      rcases Option.map_eq_some_iff.1 read with ⟨written, parsed, rfl⟩
      refine ⟨_, by rw [assign, number_of_parse _ parsed]; rfl, ?_⟩
      intro other
      cases other <;> rfl

end SettingValues

namespace Environment

/-- Whether every variable that is set holds a valid value. -/
def Sound (environment : Environment) : Prop :=
  ∀ setting, ∀ text ∈ environment.value? setting, (setting.read? text).isSome

/-- The value that the environment adds for a setting, unless the setting is given. -/
def added? (environment : Environment) (given : SettingValues) (setting : Setting) :
    Option SettingValue :=
  if given.gives setting then none else (environment.value? setting).bind setting.read?

/-- One variable is looked up: its value is assigned, unless the setting is given. -/
def lookUp (environment : Environment) (given values : SettingValues) (setting : Setting) :
    Except UsageError SettingValues :=
  match environment.value? setting with
  | some text => if given.gives setting then .ok values else values.assign setting text
  | none => .ok values

theorem read_eq_foldlM (environment : Environment) (given : SettingValues) :
    environment.read given = settings.foldlM (environment.lookUp given) {} :=
  rfl

variable {environment : Environment}

theorem exists_lookUp (sound : environment.Sound) (given values : SettingValues)
    (setting : Setting) :
    ∃ next, environment.lookUp given values setting = .ok next ∧
      ∀ other, next.value? other =
        (if other = setting then environment.added? given setting else none).or
          (values.value? other) := by
  cases found : environment.value? setting with
  | none => exact ⟨values, by rw [lookUp, found], fun other => by simp [added?, found]⟩
  | some text =>
      by_cases isGiven : given.gives setting = true
      · refine ⟨values, by rw [lookUp, found]; exact if_pos isGiven, ?_⟩
        intro other
        simp [added?, isGiven]
      · rcases values.exists_assign (sound setting text found) with ⟨next, assigned, holds⟩
        refine ⟨next, by rw [lookUp, found, ← assigned]; exact if_neg isGiven, ?_⟩
        intro other
        rcases Option.isSome_iff_exists.1 (sound setting text found) with ⟨value, read⟩
        rw [holds, added?, if_neg isGiven, found, Option.bind_some, read]
        split <;> rfl

/-- Looking up the same variable again makes no difference. -/
theorem exists_foldlM_lookUp (sound : environment.Sound) (given : SettingValues)
    (settings : List Setting) (values : SettingValues) :
    ∃ added, settings.foldlM (environment.lookUp given) values = .ok added ∧
      ∀ other, added.value? other =
        (if other ∈ settings then environment.added? given other else none).or
          (values.value? other) := by
  induction settings generalizing values with
  | nil => exact ⟨values, rfl, fun other => by simp⟩
  | cons setting settings ih =>
      rcases exists_lookUp sound given values setting with ⟨next, met, nextHolds⟩
      rcases ih next with ⟨added, read, holds⟩
      refine ⟨added, ?_, ?_⟩
      · rw [List.foldlM_cons, met]
        exact read
      · intro other
        rw [holds, nextHolds]
        by_cases same : other = setting
        · subst same
          split <;> simp [← Option.or_assoc]
        · simp [same]

/-- A sound environment can be read, and adds its value for each setting that is not given. -/
theorem exists_read (sound : environment.Sound) (given : SettingValues) :
    ∃ added, environment.read given = .ok added ∧
      ∀ setting, added.value? setting = environment.added? given setting := by
  rcases exists_foldlM_lookUp sound given settings {} with ⟨added, read, holds⟩
  refine ⟨added, (read_eq_foldlM environment given).trans read, ?_⟩
  intro setting
  rw [holds]
  cases setting <;> simp [settings, added?, value?, SettingValues.value?]

end Environment

namespace Invocation

def value? (invocation : Invocation) : Setting → Option SettingValue
  | .data => invocation.data.map .text
  | .application => some (.text invocation.settings.application)
  | .workers => some (.number invocation.settings.workers)
  | .retryTimeout => some (.number invocation.settings.retryTimeout)
  | .minimumSleep => some (.number invocation.settings.minimumSleep)
  | .maximumSleep => some (.number invocation.settings.maximumSleep)
  | .clockReadTicks => some (.number invocation.settings.clockReadTicks)

theorem some_getD {Value : Type} (write : Value → SettingValue) (given : Option Value)
    (standard : Value) :
    some (write (given.getD standard)) = (given.map write).or (some (write standard)) := by
  cases given <;> rfl

/-- A setting without a value has the standard one. -/
theorem value?_toDraft (command : OperatorCommand) (values : SettingValues) (setting : Setting) :
    (Invocation.mk command values.data values.toDraft).value? setting =
      (values.value? setting).or setting.standard? := by
  cases setting with
  | data => exact Option.or_none.symm
  | workers =>
      exact some_getD (fun workers : Positive => .number workers) values.workers ⟨1, Nat.one_pos⟩
  | application => exact some_getD .text _ _
  | retryTimeout | minimumSleep | maximumSleep | clockReadTicks => exact some_getD .number _ _

end Invocation

/-- The draft that settings come from. -/
def Settings.draft (settings : Settings) : SettingsDraft where
  application := settings.application
  workers := settings.workers
  retryTimeout := settings.retryTimeout
  minimumSleep := settings.sleepPolicy.minimum
  maximumSleep := settings.sleepPolicy.maximum
  ratePerWorker := settings.sleepPolicy.ratePerWorker
  clockReadTicks := settings.clockReadTicks

namespace SettingsDraft

theorem validate_eq_error_iff {draft : SettingsDraft} {mistake : OperatorMistake} :
    draft.validate = .error mistake ↔ draft.maximumSleep < draft.minimumSleep ∧
      mistake = .invertedSleepBounds draft.minimumSleep draft.maximumSleep := by
  rw [validate, SleepPolicy.ofBounds]
  by_cases ordered : draft.minimumSleep ≤ draft.maximumSleep
  · rw [dif_pos ordered]
    constructor
    · intro refused
      cases refused
    · rintro ⟨inverted, _⟩
      omega
  · rw [dif_neg ordered]
    constructor
    · intro refused
      cases refused
      exact ⟨by omega, rfl⟩
    · rintro ⟨_, rfl⟩
      rfl

theorem exists_validate {draft : SettingsDraft}
    (ordered : draft.minimumSleep ≤ draft.maximumSleep) :
    ∃ settings, draft.validate = .ok settings ∧ settings.draft = draft := by
  refine ⟨_, by rw [validate, SleepPolicy.ofBounds, dif_pos ordered]; rfl, rfl⟩

end SettingsDraft

end DataflowOps
