/-!
# Grammar of the command line

The commands, the options each level of the command line takes, and the shapes of an argument. The
options that choose settings may stand before as well as after the command.
-/

namespace DataflowOps

/-- An option that chooses a setting. -/
inductive Setting where
  | data
  | application
  | workers
  | retryTimeout
  | minimumSleep
  | maximumSleep
  | clockReadTicks
  deriving DecidableEq, Repr

/-- An option that selects what a scan prints. -/
inductive Selection where
  | exactRow
  | rowStem
  | startRow
  | endRow
  | columns
  deriving DecidableEq, Repr

inductive OptionName where
  | setting (setting : Setting)
  | selection (selection : Selection)
  deriving DecidableEq, Repr

/-- What an argument that begins with a dash can ask for. -/
inductive Request where
  | value (option : OptionName)
  | help
  | version
  deriving DecidableEq, Repr

inductive CommandWord where
  | scan
  | wait
  | help
  deriving DecidableEq, Repr

/-- A level of the command line: before the command, or after it. -/
inductive Level where
  | top
  | scan
  | wait
  deriving DecidableEq, Repr

namespace OptionName

def long : OptionName → String
  | setting .data => "data"
  | setting .application => "app"
  | setting .workers => "workers"
  | setting .retryTimeout => "retry-timeout-ms"
  | setting .minimumSleep => "min-sleep-secs"
  | setting .maximumSleep => "max-sleep-secs"
  | setting .clockReadTicks => "clock-read-ticks"
  | selection .exactRow => "exact-row"
  | selection .rowStem => "row-prefix"
  | selection .startRow => "start-row"
  | selection .endRow => "end-row"
  | selection .columns => "columns"

def short? : OptionName → Option Char
  | setting _ => none
  | selection .exactRow => some 'r'
  | selection .rowStem => some 'p'
  | selection .startRow => some 's'
  | selection .endRow => some 'e'
  | selection .columns => some 'c'

end OptionName

namespace Request

def long : Request → String
  | value option => option.long
  | help => "help"
  | version => "version"

def short? : Request → Option Char
  | value option => option.short?
  | help => some 'h'
  | version => some 'V'

end Request

def CommandWord.text : CommandWord → String
  | scan => "scan"
  | wait => "wait"
  | help => "help"

namespace Level

/-- The options for settings, which every level takes. -/
def settings : List Request :=
  [.data, .application, .workers, .retryTimeout, .minimumSleep, .maximumSleep, .clockReadTicks].map
    fun setting => .value (.setting setting)

def selections : List Request :=
  [.exactRow, .rowStem, .startRow, .endRow, .columns].map fun selection =>
    .value (.selection selection)

def requests : Level → List Request
  | top => settings ++ [.help, .version]
  | scan => settings ++ selections ++ [.help]
  | wait => settings ++ [.help]

def commands : Level → List CommandWord
  | top => [.scan, .wait, .help]
  | scan | wait => []

def findLong? (level : Level) (name : String) : Option Request :=
  level.requests.find? fun request => request.long == name

def findShort? (level : Level) (letter : Char) : Option Request :=
  level.requests.find? fun request => request.short? == some letter

def findCommand? (level : Level) (word : String) : Option CommandWord :=
  level.commands.find? fun command => command.text == word

end Level

inductive Argument where
  | separator
  | long (name : String) (value : Option String)
  | short (letter : Char) (rest : List Char)
  | plain
  deriving DecidableEq, Repr

namespace Argument

/-- The name and the value of a long option, which are divided by the first equals sign. -/
def readLong (characters : List Char) : Argument :=
  let name := String.ofList (characters.takeWhile (· ≠ '='))
  match characters.dropWhile (· ≠ '=') with
  | [] => .long name none
  | _ :: value => .long name (some (String.ofList value))

/-- The shape of an argument. A dash alone is plain. -/
def read (argument : String) : Argument :=
  match argument.toList with
  | ['-', '-'] => .separator
  | '-' :: '-' :: characters => readLong characters
  | '-' :: letter :: rest => .short letter rest
  | _ => .plain

end Argument

end DataflowOps
