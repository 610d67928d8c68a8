import DataflowOps.CommandLine.Values

/-!
# Usage messages

What the operator is told when the command line leads to no command.
-/

namespace DataflowOps

namespace UsageError

def help : String :=
  "Operator commands for a transactional dataflow engine.\n\n" ++
    "Commands:\n" ++
    "  scan  Print a snapshot of the data, optionally restricted by row and column\n" ++
    "  wait  Block until all notifications are processed\n" ++
    "  help  Print this message\n\n" ++
    "Options before or after the command:\n" ++
    "  --data FILE --app NAME --workers N --retry-timeout-ms N\n" ++
    "  --min-sleep-secs N --max-sleep-secs N --clock-read-ticks N\n\n" ++
    "Options of scan:\n" ++
    "  -r, --exact-row ROW   -p, --row-prefix ROW   -s, --start-row ROW\n" ++
    "  -e, --end-row ROW     -c, --columns FAMILY[:QUALIFIER],...\n"

def version : String := "Dataflow operator commands, version 0.1.0\n"

def problem : UsageError → String
  | helpRequested | versionRequested | nothingAsked => ""
  | missingCommand => "a command is missing"
  | unknownCommand word => "'" ++ word ++ "' is not a command"
  | unknownArgument argument => "unexpected argument '" ++ argument ++ "'"
  | missingValue option => "a value is missing for '--" ++ option.long ++ "'"
  | invalidValue option value => "invalid value '" ++ value ++ "' for '--" ++ option.long ++ "'"
  | repeatedOption option => "'--" ++ option.long ++ "' cannot be used more than once"
  | unexpectedValue name => "'--" ++ name ++ "' takes no value"

def message : UsageError → String
  | helpRequested | nothingAsked => help
  | versionRequested => version
  | error => "error: " ++ error.problem ++ "\n\nFor more information, try '--help'.\n"

end UsageError

end DataflowOps
