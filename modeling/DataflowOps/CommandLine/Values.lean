import DataflowOps.Command.Scan
import DataflowOps.CommandLine.Grammar
import DataflowOps.Text.Fields
import DataflowOps.Text.Number

/-!
# Values of options

The values given at one level of the command line, and the mistakes that end its reading. An option
is given at most once per level, except for the columns, which add up. The environment stands in for
options that a level does not give; its values are checked at every level that could use them.
-/

namespace DataflowOps

/-- Why a command line leads to no command. Asking for help or for the version is no mistake. -/
inductive UsageError where
  | helpRequested
  | versionRequested
  | nothingAsked
  | missingCommand
  | unknownCommand (word : String)
  | unknownArgument (argument : String)
  | missingValue (option : OptionName)
  | invalidValue (option : OptionName) (value : String)
  | repeatedOption (option : OptionName)
  | unexpectedValue (name : String)
  deriving DecidableEq, Repr

/-- The status of a process whose command line is not carried out. -/
def UsageError.code : UsageError → Nat
  | helpRequested | versionRequested => 0
  | _ => 2

/-- The settings given at one level or by the environment. The path of the data is a text, so that
paths that are not UTF-8 are left out. -/
structure SettingValues where
  data : Option String := none
  application : Option String := none
  workers : Option Positive := none
  retryTimeout : Option Nat := none
  minimumSleep : Option Nat := none
  maximumSleep : Option Nat := none
  clockReadTicks : Option Nat := none
  deriving DecidableEq

namespace SettingValues

def gives (values : SettingValues) : Setting → Bool
  | .data => values.data.isSome
  | .application => values.application.isSome
  | .workers => values.workers.isSome
  | .retryTimeout => values.retryTimeout.isSome
  | .minimumSleep => values.minimumSleep.isSome
  | .maximumSleep => values.maximumSleep.isSome
  | .clockReadTicks => values.clockReadTicks.isSome

/-- Settings of which `first` has precedence over `second`. -/
def orElse (first second : SettingValues) : SettingValues where
  data := first.data <|> second.data
  application := first.application <|> second.application
  workers := first.workers <|> second.workers
  retryTimeout := first.retryTimeout <|> second.retryTimeout
  minimumSleep := first.minimumSleep <|> second.minimumSleep
  maximumSleep := first.maximumSleep <|> second.maximumSleep
  clockReadTicks := first.clockReadTicks <|> second.clockReadTicks

def number (setting : Setting) (text : String) : Except UsageError Nat :=
  match Number.parse? text with
  | some number => .ok number
  | none => .error (.invalidValue (.setting setting) text)

def positive (setting : Setting) (text : String) : Except UsageError Positive := do
  let written ← number setting text
  if known : 0 < written then return ⟨written, known⟩
  else throw (.invalidValue (.setting setting) text)

/-- The settings with the value written for one of them. The path of the data must not be empty. -/
def assign (values : SettingValues) (setting : Setting) (text : String) :
    Except UsageError SettingValues :=
  match setting with
  | .data =>
    if text = "" then .error (.missingValue (.setting .data))
    else .ok { values with data := some text }
  | .application => .ok { values with application := some text }
  | .workers => (positive .workers text).map fun workers => { values with workers := some workers }
  | .retryTimeout =>
    (number .retryTimeout text).map fun timeout => { values with retryTimeout := some timeout }
  | .minimumSleep =>
    (number .minimumSleep text).map fun sleep => { values with minimumSleep := some sleep }
  | .maximumSleep =>
    (number .maximumSleep text).map fun sleep => { values with maximumSleep := some sleep }
  | .clockReadTicks =>
    (number .clockReadTicks text).map fun ticks => { values with clockReadTicks := some ticks }

/-- The settings with the standard value for each that is not given. -/
def toDraft (values : SettingValues) : SettingsDraft :=
  let standard : SettingsDraft := {}
  { application := values.application.getD standard.application
    workers := values.workers.getD standard.workers
    retryTimeout := values.retryTimeout.getD standard.retryTimeout
    minimumSleep := values.minimumSleep.getD standard.minimumSleep
    maximumSleep := values.maximumSleep.getD standard.maximumSleep
    ratePerWorker := standard.ratePerWorker
    clockReadTicks := values.clockReadTicks.getD standard.clockReadTicks }

end SettingValues

/-- The variables of the environment that stand in for options. -/
structure Environment where
  data : Option String := none
  application : Option String := none
  workers : Option String := none
  retryTimeout : Option String := none
  deriving DecidableEq, Repr

namespace Environment

def variableName? : Setting → Option String
  | .data => some "FLOWCTL_DATA"
  | .application => some "FLOWCTL_APP"
  | .workers => some "FLOWCTL_WORKERS"
  | .retryTimeout => some "FLOWCTL_RETRY_TIMEOUT_MS"
  | .minimumSleep | .maximumSleep | .clockReadTicks => none

def value? (environment : Environment) : Setting → Option String
  | .data => environment.data
  | .application => environment.application
  | .workers => environment.workers
  | .retryTimeout => environment.retryTimeout
  | .minimumSleep | .maximumSleep | .clockReadTicks => none

/-- The settings that have a variable, in the order in which these are checked. -/
def settings : List Setting :=
  [.data, .application, .workers, .retryTimeout]

/-- The settings found in the environment, of those that are not given otherwise. -/
def read (environment : Environment) (given : SettingValues) : Except UsageError SettingValues :=
  settings.foldlM (fun values setting =>
    match environment.value? setting with
    | some text => if given.gives setting then .ok values else values.assign setting text
    | none => .ok values) {}

end Environment

structure GivenValues where
  settings : SettingValues := {}
  selection : ScanOptions := {}
  deriving DecidableEq

namespace GivenValues

/-- Whether an option is given that may be given only once. -/
def repeats (given : GivenValues) : OptionName → Bool
  | .setting setting => given.settings.gives setting
  | .selection .exactRow => given.selection.exactRow.isSome
  | .selection .rowStem => given.selection.rowStem.isSome
  | .selection .startRow => given.selection.startRow.isSome
  | .selection .endRow => given.selection.endRow.isSome
  | .selection .columns => false

/-- The selection with the value of one of its options; columns are divided by commas. -/
def select (selection : ScanOptions) (text : String) : Selection → ScanOptions
  | .exactRow => { selection with exactRow := some text }
  | .rowStem => { selection with rowStem := some text }
  | .startRow => { selection with startRow := some text }
  | .endRow => { selection with endRow := some text }
  | .columns =>
    { selection with
      columns := selection.columns ++ (Fields.split ',' text.toList).map String.ofList }

def add (given : GivenValues) (option : OptionName) (text : String) :
    Except UsageError GivenValues :=
  if given.repeats option then .error (.repeatedOption option)
  else
    match option with
    | .setting setting =>
      (given.settings.assign setting text).map fun settings => { given with settings }
    | .selection selection => .ok { given with selection := select given.selection text selection }

end GivenValues

end DataflowOps
