import DataflowOps.CommandLine.Values

/-!
# Invocations

The reading of a command line, from left to right, into a command with its settings. An option may
carry its value or find it in the next argument that does not look like an option. Such a value is
judged only when the next option is met or the level ends, and a level ends before the one around
it. A value given after the command has precedence over one given before it, and both over the
environment.
-/

namespace DataflowOps

inductive OperatorCommand where
  | scan (options : ScanOptions)
  | wait
  deriving DecidableEq

structure Invocation where
  command : OperatorCommand
  data : Option String
  settings : SettingsDraft
  deriving DecidableEq

/-- What has been read of a level: the values given, and an option that was met without its value,
with that value once it has been met too. -/
structure LevelState where
  given : GivenValues := {}
  pending : Option (OptionName × Option String) := none
  deriving DecidableEq

namespace LevelState

/-- Whether the next plain argument is the value of an option. -/
def awaitsValue (state : LevelState) : Bool :=
  match state.pending with
  | some (_, none) => true
  | _ => false

def supply (state : LevelState) (text : String) : LevelState :=
  { state with pending := state.pending.map fun (option, _) => (option, some text) }

/-- The values given, including that of the pending option. -/
def resolve (state : LevelState) : Except UsageError GivenValues :=
  match state.pending with
  | none => .ok state.given
  | some (option, none) => .error (.missingValue option)
  | some (option, some text) => state.given.add option text

/-- The state after an option, whose value may be written along with it. -/
def meetOption (state : LevelState) (option : OptionName) (value : Option String) :
    Except UsageError LevelState := do
  let given ← state.resolve
  match value with
  | none => return { given, pending := some (option, none) }
  | some text => return { given := ← given.add option text }

/-- The end of the reading at a request that is not for a value. -/
def meetRequest {Value : Type} (state : LevelState) (request : UsageError) :
    Except UsageError Value := do
  let _ ← state.resolve
  throw request

def meetLong (state : LevelState) (level : Level) (argument name : String) (value : Option String) :
    Except UsageError LevelState :=
  match level.findLong? name, value with
  | none, _ => .error (.unknownArgument argument)
  | some (.value option), value => state.meetOption option value
  | some _, some _ => .error (.unexpectedValue name)
  | some .help, none => state.meetRequest .helpRequested
  | some .version, none => state.meetRequest .versionRequested

/-- The value written after the letter of an option, with or without an equals sign before it. -/
def attachedValue : List Char → Option String
  | [] => none
  | '=' :: value => some (String.ofList value)
  | value => some (String.ofList value)

def meetShort (state : LevelState) (level : Level) (argument : String) (letter : Char)
    (rest : List Char) : Except UsageError LevelState :=
  match level.findShort? letter with
  | none => .error (.unknownArgument argument)
  | some (.value option) => state.meetOption option (attachedValue rest)
  | some .help => state.meetRequest .helpRequested
  | some .version => state.meetRequest .versionRequested

end LevelState

namespace Level

/-- The mistake of an argument that is neither an option nor a value nor, before a separator, a
command. -/
def strayArgument (level : Level) (afterSeparator : Bool) (argument : String) : UsageError :=
  if level.commands.isEmpty then .unknownArgument argument
  else if afterSeparator && (level.findCommand? argument).isSome then .unknownArgument argument
  else .unknownCommand argument

/-- Reads the arguments of a level up to a command, which is returned with the arguments that follow
it, or up to their end. -/
def read (level : Level) (state : LevelState) :
    List String → Except UsageError (LevelState × Option (CommandWord × List String))
  | [] => .ok (state, none)
  | argument :: rest =>
    match if state.awaitsValue then none else level.findCommand? argument with
    | some command => .ok (state, some (command, rest))
    | none =>
      match Argument.read argument with
      | .separator =>
        match rest with
        | [] => .ok (state, none)
        | stray :: _ => .error (level.strayArgument true stray)
      | .long name value => do
        let next ← state.meetLong level argument name value
        level.read next rest
      | .short letter letters => do
        let next ← state.meetShort level argument letter letters
        level.read next rest
      | .plain =>
        if state.awaitsValue then level.read (state.supply argument) rest
        else .error (level.strayArgument false argument)

end Level

namespace Invocation

/-- The values of a level that has ended, and the settings that the environment adds to them. -/
def closeLevel (environment : Environment) (state : LevelState) :
    Except UsageError (GivenValues × SettingValues) := do
  let given ← state.resolve
  let added ← environment.read given.settings
  return (given, added)

/-- The end of a command line that asks for help on a command: a word after `help` has to be a
command, and nothing may follow it. -/
def requestHelp : List String → UsageError
  | [] => .helpRequested
  | word :: rest =>
    match Level.top.findCommand? word, rest with
    | none, _ => .unknownCommand word
    | some _, [] => .helpRequested
    | some _, stray :: _ => .unknownCommand stray

def withoutCommand (environment : Environment) (top : LevelState) : UsageError :=
  match closeLevel environment top with
  | .error error => error
  | .ok (given, added) =>
    if given.settings.orElse added = {} then .nothingAsked else .missingCommand

/-- The invocation of a command whose arguments have been read up to their end. -/
def ofLevels (environment : Environment) (command : ScanOptions → OperatorCommand)
    (top inner : LevelState) : Except UsageError Invocation := do
  let (innerGiven, _) ← closeLevel environment inner
  let (topGiven, added) ← closeLevel environment top
  let settings := (innerGiven.settings.orElse topGiven.settings).orElse added
  return ⟨command innerGiven.selection, settings.data, settings.toDraft⟩

def parse (environment : Environment) (arguments : List String) :
    Except UsageError Invocation := do
  match ← Level.top.read {} arguments with
  | (top, none) => throw (withoutCommand environment top)
  | (_, some (.help, words)) => throw (requestHelp words)
  | (top, some (.scan, rest)) =>
    let (inner, _) ← Level.scan.read {} rest
    ofLevels environment .scan top inner
  | (top, some (.wait, rest)) =>
    let (inner, _) ← Level.wait.read {} rest
    ofLevels environment (fun _ => .wait) top inner

end Invocation

end DataflowOps
