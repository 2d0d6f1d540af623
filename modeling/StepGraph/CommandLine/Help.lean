import StepGraph.CommandLine.Arguments

/-!
# Help texts
-/
namespace StepGraph.CommandLine

/-- The version line. -/
def versionText : String := "dgraph 0.1.1\n"

/-- The lines on the options known everywhere, their names filled up to a width. -/
def commonOptions (padding : String) : String :=
  "  -c, --config <CONFIG>        " ++ padding ++
    "Engine settings as JSON (`\x7b\"trace\": bool, \"maxDepth\": n\x7d`)\n" ++
  "  -d, --debug                  " ++ padding ++ "Log every executed step [env: DGRAPH_DEBUG=]\n" ++
  "      --max-depth <MAX_DEPTH>  " ++ padding ++ "Nesting bound before a run fails as cyclic\n"

/-- The help text on a command, or on all of them. -/
def helpText : Scope → String
  | .top =>
    "Run declarative computation graphs\n\n" ++
    "Usage: dgraph [OPTIONS] <COMMAND>\n\n" ++
    "Commands:\n" ++
    "  run        Execute a graph and print its output as JSON\n" ++
    "  check      Load and validate a graph without running it\n" ++
    "  functions  List the available transform functions\n" ++
    "  help       Print this message or the help of the given subcommand(s)\n\n" ++
    "Options:\n" ++ commonOptions "" ++
    "  -h, --help                   Print help\n" ++
    "  -V, --version                Print version\n"
  | .run =>
    "Execute a graph and print its output as JSON\n\n" ++
    "Usage: dgraph run [OPTIONS] <GRAPH>\n\n" ++
    "Arguments:\n" ++
    "  <GRAPH>  Graph document (step array or `\x7b data: [...] \x7d`)\n\n" ++
    "Options:\n" ++
    "  -c, --config <CONFIG>        " ++
    "Engine settings as JSON (`\x7b\"trace\": bool, \"maxDepth\": n\x7d`)\n" ++
    "  -i, --inputs <INPUTS>        Inputs document; `-` reads standard input\n" ++
    "  -d, --debug                  Log every executed step [env: DGRAPH_DEBUG=]\n" ++
    "      --pretty                 Pretty-print the output\n" ++
    "      --max-depth <MAX_DEPTH>  Nesting bound before a run fails as cyclic\n" ++
    "  -h, --help                   Print help\n"
  | .check =>
    "Load and validate a graph without running it\n\n" ++
    "Usage: dgraph check [OPTIONS] <GRAPH>\n\n" ++
    "Arguments:\n" ++
    "  <GRAPH>  \n\n" ++
    "Options:\n" ++ commonOptions "" ++
    "  -h, --help                   Print help\n"
  | .functions =>
    "List the available transform functions\n\n" ++
    "Usage: dgraph functions [OPTIONS]\n\n" ++
    "Options:\n" ++ commonOptions "" ++
    "  -h, --help                   Print help\n"

/-- The hint on arguments that make no sense. -/
def misuseText : String := "Usage: dgraph [OPTIONS] <COMMAND>\n\nFor more information, try '--help'.\n"

end StepGraph.CommandLine
