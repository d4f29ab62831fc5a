import ShapeDispatch.Inspect.Arguments

/-!
What the command line says of itself.
-/

namespace ShapeDispatch.Inspect

def programName : String := "polydispatch-inspect"

def versionText : String := programName ++ " 0.2.0\n"

def overviewHelp : List String := [
  "Inspect compiled dispatch tables",
  "",
  "Usage: " ++ programName ++ " [OPTIONS] <COMMAND>",
  "",
  "Commands:",
  "  table     Compile a description file and print its dispatch table",
  "  resolve   Show which entry a call would run",
  "  describe  Print the type description of a JSON value",
  "  help      Print this message or the help of the given subcommand(s)",
  "",
  "Options:",
  "  -v, --verbose  Verbose output",
  "  -h, --help     Print help",
  "  -V, --version  Print version"]

def tableHelp : List String := [
  "Compile a description file and print its dispatch table",
  "",
  "Usage: " ++ programName ++ " table [OPTIONS] <FILE>",
  "",
  "Arguments:",
  "  <FILE>  Description file (TOML)",
  "",
  "Options:",
  "  -v, --verbose  Verbose output",
  "  -h, --help     Print help"]

def resolveHelp : List String := [
  "Show which entry a call would run",
  "",
  "Usage: " ++ programName ++ " resolve [OPTIONS] <FILE> <ARGS_JSON>",
  "",
  "Arguments:",
  "  <FILE>       Description file (TOML)",
  "  <ARGS_JSON>  Arguments as a JSON array",
  "",
  "Options:",
  "  -v, --verbose  Verbose output",
  "  -h, --help     Print help"]

def describeHelp : List String := [
  "Print the type description of a JSON value",
  "",
  "Usage: " ++ programName ++ " describe [OPTIONS] <JSON>",
  "",
  "Arguments:",
  "  <JSON>  The value, as JSON",
  "",
  "Options:",
  "      --depth <DEPTH>  How many array levels to descend into [default: 0]",
  "  -v, --verbose        Verbose output",
  "  -h, --help           Print help"]

def helpHelp : List String := [
  "Print this message or the help of the given subcommand(s)",
  "",
  "Usage: " ++ programName ++ " help [COMMAND]...",
  "",
  "Arguments:",
  "  [COMMAND]...  Print help for the subcommand(s)"]

/-- The lines that explain a topic. -/
def helpLines : Topic → List String
  | .overview => overviewHelp
  | .table => tableHelp
  | .resolve => resolveHelp
  | .describe => describeHelp
  | .help => helpHelp

def helpText (topic : Topic) : String := "\n".intercalate (helpLines topic) ++ "\n"

end ShapeDispatch.Inspect
