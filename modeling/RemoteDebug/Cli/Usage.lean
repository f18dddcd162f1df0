import RemoteDebug.Cli.Arguments

/-! What the client says when it is asked for help, or when its arguments are no invocation. -/
namespace RemoteDebug.Cli

def versionText : String := "0.1.0"

/-- The commands and options, a line each. -/
def usage : String :=
  "\n".intercalate
    ["Inspect and debug tabs over the remote debugging protocol",
      "",
      "Commands:",
      "  check         Connect, check the protocol version, and ping the server",
      "  tabs          List debuggable tabs",
      "  attach <TAB>  Attach to a tab and print its events until interrupted",
      "  help          Print this text",
      "",
      "Options:",
      "  -v, --verbose        Log more; may be repeated",
      "      --host <HOST>    Host of the debugging server [default: 127.0.0.1]",
      "  -p, --port <PORT>    Port of the debugging server [default: 9222]",
      "      --timeout <MS>   Timeout of each request in milliseconds [default: 3000]",
      "  -h, --help           Print this text",
      "  -V, --version        Print the version",
      "",
      "Options of attach:",
      "  -e, --eval <SCRIPT>    Evaluate this script once attached",
      "      --duration <SECS>  Detach after so many seconds"]

/-- What is said for a refusal. -/
def Refusal.text : Refusal → String
  | .help | .helpForNothing => usage
  | .version => versionText
  | .unknownArgument => "error: unexpected argument"
  | .unknownCommand => "error: unrecognized subcommand"
  | .missingCommand => "error: a subcommand is required"
  | .missingArgument => "error: a required argument was not provided"
  | .missingValue => "error: a value is required for an option"
  | .badValue => "error: invalid value"
  | .repeatedOption => "error: an option cannot be used multiple times"
  | .surplusValue => "error: unexpected value for a switch"

/-- Requests for a text are answered on standard output, faults on standard error. -/
def Refusal.isFault (r : Refusal) : Bool := r.exitCode != 0

end RemoteDebug.Cli
